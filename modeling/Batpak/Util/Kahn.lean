/-
Module: Batpak.Util.Kahn
Purpose: Topological sorting with a ready set ordered by key: a canonical order comes out, and it
  is complete unless prerequisites are cyclic.
Trusted boundary: none
Main exports: insertByKey, KahnState
-/
import Batpak.Util.CanonicalOrder

namespace Batpak.Util

variable {α κ : Type*} [DecidableEq α] [LinearOrder κ]

/-! ### The ready set -/

/-- Insert into a list kept in key order, without repetition. -/
def insertByKey (key : α → κ) (a : α) : List α → List α
  | [] => [a]
  | b :: rest =>
      if key a < key b then a :: b :: rest
      else if key a = key b then b :: rest
      else b :: insertByKey key a rest

def KeySorted (key : α → κ) (xs : List α) : Prop :=
  xs.Pairwise fun a b => key a < key b

section InsertByKey

variable {key : α → κ}

theorem mem_insertByKey (hkey : Function.Injective key) {a x : α} {xs : List α} :
    x ∈ insertByKey key a xs ↔ x = a ∨ x ∈ xs := by
  induction xs with
  | nil => simp [insertByKey]
  | cons b rest ih =>
      unfold insertByKey
      split
      · exact List.mem_cons
      · split
        · rename_i heq
          rw [hkey heq]
          simp
        · rw [List.mem_cons, ih, List.mem_cons]
          tauto

theorem keySorted_insertByKey (hkey : Function.Injective key) {a : α} {xs : List α}
    (h : KeySorted key xs) : KeySorted key (insertByKey key a xs) := by
  induction xs with
  | nil => exact List.pairwise_singleton _ _
  | cons b rest ih =>
      obtain ⟨hb, hrest⟩ := List.pairwise_cons.mp h
      unfold insertByKey
      split
      · rename_i hlt
        apply List.pairwise_cons.mpr
        refine ⟨?_, h⟩
        intro c hc
        rcases List.mem_cons.mp hc with rfl | hc
        · exact hlt
        · exact lt_trans hlt (hb c hc)
      · split
        · exact h
        · rename_i hnot hne
          apply List.pairwise_cons.mpr
          refine ⟨?_, ih hrest⟩
          intro c hc
          rcases (mem_insertByKey hkey).mp hc with rfl | hc
          · exact lt_of_le_of_ne (not_lt.mp hnot) fun heq => hne heq.symm
          · exact hb c hc

theorem KeySorted.foldr_insert (hkey : Function.Injective key) (xs : List α) :
    KeySorted key (xs.foldr (insertByKey key) []) ∧
      ∀ x, x ∈ xs.foldr (insertByKey key) [] ↔ x ∈ xs := by
  induction xs with
  | nil => exact ⟨List.Pairwise.nil, fun x => Iff.rfl⟩
  | cons a rest ih =>
      refine ⟨keySorted_insertByKey hkey ih.1, ?_⟩
      intro x
      rw [List.foldr_cons, mem_insertByKey hkey, ih.2, List.mem_cons]

end InsertByKey

/-! ### The loop -/

/-- Counters of unplaced prerequisites, the ready set in key order, and the order so far. -/
structure KahnState (α : Type*) where
  indegree : α → Nat
  ready : List α
  ordered : List α

/-- One dependent of the element just taken. -/
def release (key : α → κ) (s : KahnState α) (child : α) : KahnState α :=
  let degree := s.indegree child - 1
  { s with
    indegree := Function.update s.indegree child degree
    ready := if degree = 0 then insertByKey key child s.ready else s.ready }

def kahnLoop (key : α → κ) (dependents : α → List α) : Nat → KahnState α → KahnState α
  | 0, s => s
  | turns + 1, s =>
      match s.ready with
      | [] => s
      | a :: rest =>
          let s := (dependents a).foldl (release key) { s with ready := rest }
          kahnLoop key dependents turns { s with ordered := s.ordered ++ [a] }

/-- Sort the given elements: every turn takes one of them, so as many turns as there are
elements are enough. -/
def kahnRun (key : α → κ) (prereqs : α → List α) (elements : List α) : KahnState α :=
  let indegree := fun a => (prereqs a).length
  let dependents := fun a => elements.filter fun child => a ∈ prereqs child
  let ready := (elements.filter fun a => indegree a = 0).foldr (insertByKey key) []
  kahnLoop key dependents elements.length ⟨indegree, ready, []⟩

/-! ### The invariant -/

/-- Between two turns the counters count the prerequisites that are not placed and the
ready set holds what is not placed and needs nothing more. -/
structure KahnInvariant (key : α → κ) (prereqs : α → List α) (elements : List α)
    (s : KahnState α) : Prop where
  nodup : s.ordered.Nodup
  inside : ∀ a ∈ s.ordered, a ∈ elements
  closed : ∀ a ∈ s.ordered, ∀ r ∈ prereqs a, r ∈ s.ordered
  degree : ∀ a ∈ elements, s.indegree a = (prereqs a).countP (· ∉ s.ordered)
  ready : ∀ a, a ∈ s.ready ↔ a ∈ elements ∧ a ∉ s.ordered ∧ ∀ r ∈ prereqs a, r ∈ s.ordered
  sorted : KeySorted key s.ready

section Invariant

variable {key : α → κ} {prereqs : α → List α} {elements : List α} {s : KahnState α}

/-- Releasing the dependents one after another. -/
theorem foldl_release (hkey : Function.Injective key) {children : List α}
    (hnodup : children.Nodup) (hsorted : KeySorted key s.ready) :
    (children.foldl (release key) s).ordered = s.ordered ∧
    (∀ a, (children.foldl (release key) s).indegree a =
      if a ∈ children then s.indegree a - 1 else s.indegree a) ∧
    (∀ a, a ∈ (children.foldl (release key) s).ready ↔
      a ∈ s.ready ∨ a ∈ children ∧ s.indegree a - 1 = 0) ∧
    KeySorted key (children.foldl (release key) s).ready := by
  induction children generalizing s with
  | nil => exact ⟨rfl, by simp, by simp, hsorted⟩
  | cons c rest ih =>
      obtain ⟨hc, hrest⟩ := List.nodup_cons.mp hnodup
      have hsorted' : KeySorted key (release key s c).ready := by
        unfold release
        dsimp only
        split
        · exact keySorted_insertByKey hkey hsorted
        · exact hsorted
      have hmem : ∀ a, a ∈ (release key s c).ready ↔
          a ∈ s.ready ∨ a = c ∧ s.indegree c - 1 = 0 := by
        intro a
        unfold release
        dsimp only
        split
        · rename_i hzero
          rw [mem_insertByKey hkey]
          tauto
        · rename_i hpos
          tauto
      have hother : ∀ a, a ∈ rest → (release key s c).indegree a = s.indegree a := by
        intro a ha
        apply Function.update_of_ne
        rintro rfl
        exact hc ha
      obtain ⟨hordered, hdegree, hready, hfinal⟩ := ih hrest hsorted'
      refine ⟨hordered, ?_, ?_, hfinal⟩
      · intro a
        rw [List.foldl_cons, hdegree]
        by_cases hac : a = c
        · subst hac
          rw [if_neg hc, if_pos List.mem_cons_self]
          exact Function.update_self ..
        · have hsame : (release key s c).indegree a = s.indegree a := Function.update_of_ne hac _ _
          simp [hac, hsame]
      · intro a
        rw [List.foldl_cons, hready, hmem]
        constructor
        · rintro ((h | ⟨rfl, h⟩) | ⟨h, hzero⟩)
          · exact Or.inl h
          · exact Or.inr ⟨List.mem_cons_self, h⟩
          · rw [hother a h] at hzero
            exact Or.inr ⟨List.mem_cons_of_mem _ h, hzero⟩
        · rintro (h | ⟨h, hzero⟩)
          · exact Or.inl (Or.inl h)
          · rcases List.mem_cons.mp h with rfl | h
            · exact Or.inl (Or.inr ⟨rfl, hzero⟩)
            · rw [← hother a h] at hzero
              exact Or.inr ⟨h, hzero⟩

/-- Placing one more prerequisite lowers the count of those that need it. -/
theorem countP_place {a c : α} {placed : List α} (hnodup : (prereqs c).Nodup) (ha : a ∉ placed) :
    (prereqs c).countP (· ∉ placed ++ [a]) =
      if a ∈ prereqs c then (prereqs c).countP (· ∉ placed) - 1
      else (prereqs c).countP (· ∉ placed) := by
  generalize prereqs c = needed at hnodup
  induction needed with
  | nil => simp
  | cons r rest ih =>
      obtain ⟨hr, hrest⟩ := List.nodup_cons.mp hnodup
      have hstep := ih hrest
      rw [List.countP_cons, List.countP_cons, hstep]
      by_cases hra : r = a
      · subst hra
        simp [hr, ha]
      · by_cases hrp : r ∈ placed
        · have har : ¬a = r := fun h => hra h.symm
          simp [hrp, har]
        · have har : ¬a = r := fun h => hra h.symm
          by_cases hmem : a ∈ rest
          · have hpos : 0 < rest.countP (· ∉ placed) :=
              List.countP_pos_iff.mpr ⟨a, hmem, decide_eq_true ha⟩
            simp only [hmem, if_true, List.mem_cons, or_true, List.mem_append, hrp, hra,
              List.not_mem_nil, or_self, not_false_eq_true, decide_true]
            omega
          · simp [hrp, hra, har, hmem]

/-- A turn takes an element that is ready, and nothing ready has a smaller key. -/
theorem KahnInvariant.turn (hkey : Function.Injective key) (helements : elements.Nodup)
    (hprereqs : ∀ a ∈ elements, (prereqs a).Nodup) (h : KahnInvariant key prereqs elements s)
    {a : α} {rest : List α} (hready : s.ready = a :: rest) :
    KahnInvariant key prereqs elements
      (let s' := (elements.filter fun child => a ∈ prereqs child).foldl (release key)
        { s with ready := rest }
      { s' with ordered := s'.ordered ++ [a] }) := by
  have htaken := (h.ready a).mp (by rw [hready]; exact List.mem_cons_self)
  obtain ⟨hin, hnew, hneeds⟩ := htaken
  have hsorted := h.sorted
  rw [hready] at hsorted
  obtain ⟨hleast, hsorted⟩ := List.pairwise_cons.mp hsorted
  obtain ⟨hordered, hdegree, hmem, hsorted'⟩ := @foldl_release _ _ _ _ key
    { s with ready := rest } hkey (elements.filter fun child => a ∈ prereqs child)
    (helements.filter _) hsorted
  generalize (elements.filter fun child => a ∈ prereqs child).foldl (release key)
    { s with ready := rest } = s' at hordered hdegree hmem hsorted' ⊢
  have hcount : ∀ c ∈ elements, (prereqs c).countP (· ∉ s.ordered ++ [a]) =
      if a ∈ prereqs c then s.indegree c - 1 else s.indegree c := by
    intro c hc
    rw [h.degree c hc]
    exact countP_place (hprereqs c hc) hnew
  have hzero : ∀ c, (prereqs c).countP (· ∉ s.ordered ++ [a]) = 0 ↔
      ∀ r ∈ prereqs c, r ∈ s.ordered ++ [a] := by
    intro c
    rw [List.countP_eq_zero]
    simp only [decide_eq_true_eq, not_not]
  refine ⟨?_, ?_, ?_, ?_, ?_, hsorted'⟩
  · dsimp only
    rw [hordered, List.nodup_append]
    refine ⟨h.nodup, by simp, ?_⟩
    rintro x hx y hy rfl
    exact hnew (List.mem_singleton.mp hy ▸ hx)
  · intro x hx
    dsimp only at hx
    rw [hordered] at hx
    rcases List.mem_append.mp hx with hx | hx
    · exact h.inside x hx
    · rw [List.mem_singleton.mp hx]
      exact hin
  · intro x hx r hr
    dsimp only at hx ⊢
    rw [hordered] at hx ⊢
    rcases List.mem_append.mp hx with hx | hx
    · exact List.mem_append_left _ (h.closed x hx r hr)
    · rw [List.mem_singleton.mp hx] at hr
      exact List.mem_append_left _ (hneeds r hr)
  · intro c hc
    change s'.indegree c = (prereqs c).countP fun r => decide (r ∉ s'.ordered ++ [a])
    rw [hordered, hcount c hc]
    refine (hdegree c).trans ?_
    by_cases hac : a ∈ prereqs c
    · simp [hc, hac]
    · simp [hac]
  · intro c
    dsimp only
    rw [hordered]
    refine (hmem c).trans ?_
    constructor
    · rintro (hc | ⟨hc, hdone⟩)
      · have hold := (h.ready c).mp (by rw [hready]; exact List.mem_cons_of_mem _ hc)
        refine ⟨hold.1, ?_, fun r hr => List.mem_append_left _ (hold.2.2 r hr)⟩
        rw [List.mem_append, List.mem_singleton]
        rintro (hplaced | rfl)
        · exact hold.2.1 hplaced
        · exact lt_irrefl _ (hleast c hc)
      · obtain ⟨hce, hac⟩ := List.mem_filter.mp hc
        have hac : a ∈ prereqs c := of_decide_eq_true hac
        have hall : ∀ r ∈ prereqs c, r ∈ s.ordered ++ [a] := by
          apply (hzero c).mp
          rw [hcount c hce, if_pos hac]
          exact hdone
        refine ⟨hce, ?_, hall⟩
        rw [List.mem_append, List.mem_singleton]
        rintro (hplaced | rfl)
        · exact hnew (h.closed c hplaced a hac)
        · exact hnew (hneeds c hac)
    · rintro ⟨hce, hnot, hall⟩
      rw [List.mem_append, List.mem_singleton] at hnot
      push Not at hnot
      by_cases hac : a ∈ prereqs c
      · right
        refine ⟨List.mem_filter.mpr ⟨hce, decide_eq_true hac⟩, ?_⟩
        have hdone := (hzero c).mpr hall
        rw [hcount c hce, if_pos hac] at hdone
        exact hdone
      · left
        have hold : c ∈ s.ready := by
          apply (h.ready c).mpr
          refine ⟨hce, hnot.1, ?_⟩
          intro r hr
          rcases List.mem_append.mp (hall r hr) with hr' | hr'
          · exact hr'
          · exact absurd (List.mem_singleton.mp hr' ▸ hr) hac
        rw [hready] at hold
        exact (List.mem_cons.mp hold).resolve_left hnot.2

/-- A run from a good state: what it adds is a canonical order behind what was placed, and
it ends with nothing ready or with all its turns used. -/
theorem kahnLoop_spec (hkey : Function.Injective key) (helements : elements.Nodup)
    (hprereqs : ∀ a ∈ elements, (prereqs a).Nodup) (turns : Nat)
    (h : KahnInvariant key prereqs elements s) :
    ∃ out, (kahnLoop key (fun a => elements.filter fun child => a ∈ prereqs child) turns s).ordered =
        s.ordered ++ out ∧
      CanonicalFrom (fun a r => r ∈ prereqs a) key s.ordered out ∧
      KahnInvariant key prereqs elements
        (kahnLoop key (fun a => elements.filter fun child => a ∈ prereqs child) turns s) ∧
      ((kahnLoop key (fun a => elements.filter fun child => a ∈ prereqs child) turns s).ready = [] ∨
        out.length = turns) := by
  induction turns generalizing s with
  | zero => exact ⟨[], (List.append_nil _).symm, trivial, h, Or.inr rfl⟩
  | succ turns ih =>
      unfold kahnLoop
      cases hready : s.ready with
      | nil => exact ⟨[], (List.append_nil _).symm, trivial, h, Or.inl hready⟩
      | cons a rest =>
          have hturn := h.turn hkey helements hprereqs hready
          have hsorted := h.sorted
          rw [hready] at hsorted
          obtain ⟨hordered, -⟩ := @foldl_release _ _ _ _ key { s with ready := rest } hkey
            (elements.filter fun child => a ∈ prereqs child) (helements.filter _)
            (List.pairwise_cons.mp hsorted).2
          dsimp only at hturn hordered ⊢
          generalize (elements.filter fun child => a ∈ prereqs child).foldl (release key)
            { s with ready := rest } = s' at hturn hordered ⊢
          rw [hordered] at hturn ⊢
          obtain ⟨out, hout, hcanonical, hfinal, hends⟩ := ih hturn
          refine ⟨a :: out, ?_, ⟨?_, ?_, ?_⟩, hfinal, ?_⟩
          · rw [hout, List.append_assoc]
            rfl
          · exact ((h.ready a).mp (by rw [hready]; exact List.mem_cons_self)).2.2
          · intro q hq hqready
            -- `q` is placed later, so it is not placed yet, and being ready it is in the set
            have hnodup := hfinal.nodup
            rw [hout] at hnodup
            have hqin : q ∈ elements := by
              apply hfinal.inside
              rw [hout]
              exact List.mem_append_right _ hq
            have hqnew : q ∉ s.ordered := by
              intro hplaced
              exact (List.nodup_append.mp hnodup).2.2 q (List.mem_append_left _ hplaced) q hq rfl
            have hmem := (h.ready q).mpr ⟨hqin, hqnew, hqready⟩
            rw [hready] at hmem
            rcases List.mem_cons.mp hmem with rfl | hmem
            · exact lt_irrefl _
            · exact not_lt.mpr (le_of_lt ((List.pairwise_cons.mp hsorted).1 q hmem))
          · apply hcanonical.congr
            intro x
            rw [List.mem_append, List.mem_singleton, List.mem_cons]
            tauto
          · rcases hends with hends | hends
            · exact Or.inl hends
            · exact Or.inr (by rw [List.length_cons, hends])

theorem kahnInvariant_start (hkey : Function.Injective key) :
    KahnInvariant key prereqs elements
      ⟨fun a => (prereqs a).length,
        (elements.filter fun a => (prereqs a).length = 0).foldr (insertByKey key) [], []⟩ where
  nodup := List.nodup_nil
  inside a ha := by cases ha
  closed a ha := by cases ha
  degree a _ := by simp
  ready a := by
    rw [(KeySorted.foldr_insert hkey _).2, List.mem_filter]
    simp [List.eq_nil_iff_forall_not_mem]
  sorted := (KeySorted.foldr_insert hkey _).1

/-- The sorted elements come in canonical order. -/
theorem kahnRun_canonical (hkey : Function.Injective key) (helements : elements.Nodup)
    (hprereqs : ∀ a ∈ elements, (prereqs a).Nodup) :
    CanonicalFrom (fun a r => r ∈ prereqs a) key [] (kahnRun key prereqs elements).ordered ∧
      (kahnRun key prereqs elements).ordered.Nodup ∧
      ∀ a ∈ (kahnRun key prereqs elements).ordered, a ∈ elements := by
  obtain ⟨out, hout, hcanonical, hfinal, -⟩ := kahnLoop_spec hkey helements hprereqs
    elements.length (kahnInvariant_start hkey)
  rw [List.nil_append] at hout
  refine ⟨?_, hfinal.nodup, hfinal.inside⟩
  unfold kahnRun
  dsimp only
  rw [hout]
  exact hcanonical

/-- The turns are enough: the loop ends because nothing is ready any more. -/
theorem kahnRun_exhausts (hkey : Function.Injective key) (helements : elements.Nodup)
    (hprereqs : ∀ a ∈ elements, (prereqs a).Nodup) :
    (kahnRun key prereqs elements).ready = [] := by
  obtain ⟨out, hout, -, hfinal, hends⟩ := kahnLoop_spec hkey helements hprereqs
    elements.length (kahnInvariant_start hkey)
  rcases hends with hends | hends
  · exact hends
  · -- every element is placed, so none can be ready
    have hsub : (kahnRun key prereqs elements).ordered.Subperm elements :=
      List.subperm_of_subset hfinal.nodup hfinal.inside
    have hlength : (kahnRun key prereqs elements).ordered.length = elements.length := by
      rw [← hends]
      exact congrArg List.length (hout.trans (List.nil_append _))
    have hperm := hsub.perm_of_length_le (Nat.le_of_eq hlength.symm)
    rw [List.eq_nil_iff_forall_not_mem]
    intro a ha
    obtain ⟨hin, hnot, -⟩ := (hfinal.ready a).mp ha
    exact hnot (hperm.mem_iff.mpr hin)

/-- An acyclic relation has a source in every list that is not empty. -/
theorem exists_source {needs : α → α → Prop} (hacyclic : ∀ a, ¬Relation.TransGen needs a a)
    {xs : List α} (hxs : xs ≠ []) : ∃ a ∈ xs, ∀ r ∈ xs, ¬needs a r := by
  obtain ⟨x, hx⟩ := List.exists_mem_of_ne_nil xs hxs
  let below : {a // a ∈ xs} → {a // a ∈ xs} → Prop :=
    fun r a => Relation.TransGen needs a.1 r.1
  have htrans : IsTrans {a // a ∈ xs} below := ⟨fun _ _ _ hab hbc => hbc.trans hab⟩
  have hirrefl : Std.Irrefl below := ⟨fun a => hacyclic a.1⟩
  obtain ⟨a, -, hleast⟩ := (Finite.wellFounded_of_trans_of_irrefl below).has_min Set.univ
    ⟨⟨x, hx⟩, trivial⟩
  exact ⟨a.1, a.2, fun r hr hneeds => hleast ⟨r, hr⟩ trivial (.single hneeds)⟩

/-- Without a cycle every element is placed. -/
theorem kahnRun_complete (hkey : Function.Injective key) (helements : elements.Nodup)
    (hprereqs : ∀ a ∈ elements, (prereqs a).Nodup)
    (hinside : ∀ a ∈ elements, ∀ r ∈ prereqs a, r ∈ elements)
    (hacyclic : ∀ a, ¬Relation.TransGen (fun a r => a ∈ elements ∧ r ∈ prereqs a) a a) :
    (kahnRun key prereqs elements).ordered.Perm elements := by
  obtain ⟨out, hout, -, hfinal, -⟩ := kahnLoop_spec hkey helements hprereqs
    elements.length (kahnInvariant_start hkey)
  have hexhausted := kahnRun_exhausts hkey helements hprereqs
  change KahnInvariant key prereqs elements (kahnRun key prereqs elements) at hfinal
  have hunplaced : (elements.filter fun a => a ∉ (kahnRun key prereqs elements).ordered) = [] := by
    by_contra hsome
    obtain ⟨a, ha, hleast⟩ := exists_source hacyclic hsome
    obtain ⟨hin, hnot⟩ := List.mem_filter.mp ha
    have hready : a ∈ (kahnRun key prereqs elements).ready := by
      apply (hfinal.ready a).mpr
      refine ⟨hin, of_decide_eq_true hnot, ?_⟩
      intro r hr
      by_contra hmissing
      apply hleast r _ ⟨hin, hr⟩
      exact List.mem_filter.mpr ⟨hinside a hin r hr, decide_eq_true hmissing⟩
    rw [hexhausted] at hready
    cases hready
  apply (List.perm_ext_iff_of_nodup hfinal.nodup helements).mpr
  intro a
  constructor
  · exact hfinal.inside a
  · intro hin
    by_contra hnot
    have hmem : a ∈ elements.filter fun a => a ∉ (kahnRun key prereqs elements).ordered :=
      List.mem_filter.mpr ⟨hin, decide_eq_true hnot⟩
    rw [hunplaced] at hmem
    cases hmem

end Invariant

end Batpak.Util
