/-
Module: Batpak.Util.KeyOrder
Purpose: Lists in the order of a key: stable sorting, sorted tables, first elements and claims.
  What comes out does not depend on the order the elements came in.
Trusted boundary: none
Main exports: sortOn, insertOrRefuse
-/
import Batpak.Util.Scan
import Mathlib.Data.List.Destutter
import Mathlib.Data.List.Sort
import Mathlib.Data.Prod.Lex

namespace Batpak.Util

section Sorting

variable {α κ : Type} [LinearOrder κ] {key : α → κ} {l l' : List α}

def insertOn (key : α → κ) (a : α) (l : List α) : List α :=
  l.orderedInsert (fun a b => key a ≤ key b) a

/-- Stable sort by a key. -/
def sortOn (key : α → κ) (l : List α) : List α :=
  l.insertionSort fun a b => key a ≤ key b

/-- A sorted table takes an element whose key it does not hold. -/
def insertNew (key : α → κ) (a : α) (l : List α) : Option (List α) :=
  if key a ∈ l.map key then none else some (insertOn key a l)

/-- Store the table with the element, or refuse it over its key. -/
def insertOrRefuse {ε β : Type} (key : α → κ) (refusal : ε) (store : List α → β) (a : α)
    (l : List α) : Except ε β :=
  match insertNew key a l with
  | none => .error refusal
  | some t => .ok (store t)

theorem perm_insertOn (key : α → κ) (a : α) (l : List α) : (insertOn key a l).Perm (a :: l) :=
  List.perm_orderedInsert _ a l

theorem perm_sortOn (key : α → κ) (l : List α) : (sortOn key l).Perm l :=
  List.perm_insertionSort _ l

@[simp] theorem mem_sortOn {a : α} : a ∈ sortOn key l ↔ a ∈ l :=
  (perm_sortOn key l).mem_iff

@[simp] theorem mem_map_sortOn {β : Type} {f : α → β} {b : β} :
    b ∈ (sortOn key l).map f ↔ b ∈ l.map f :=
  ((perm_sortOn key l).map f).mem_iff

theorem pairwise_sortOn (key : α → κ) (l : List α) :
    (sortOn key l).Pairwise fun a b => key a ≤ key b := by
  have htotal : Std.Total fun a b : α => key a ≤ key b := ⟨fun a b => le_total _ _⟩
  have htrans : IsTrans α fun a b => key a ≤ key b := ⟨fun _ _ _ => le_trans⟩
  exact List.pairwise_insertionSort _ l

theorem pairwise_insertOn {a : α} (h : l.Pairwise fun a b => key a ≤ key b) :
    (insertOn key a l).Pairwise fun a b => key a ≤ key b := by
  have htotal : Std.Total fun a b : α => key a ≤ key b := ⟨fun a b => le_total _ _⟩
  have htrans : IsTrans α fun a b => key a ≤ key b := ⟨fun _ _ _ => le_trans⟩
  exact h.orderedInsert a l

/-- Ascending keys, no key twice. -/
def SortedOn (key : α → κ) (l : List α) : Prop :=
  l.Pairwise fun a b => key a < key b

theorem sortedOn_of_nodup (h : l.Pairwise fun a b => key a ≤ key b) (hnodup : (l.map key).Nodup) :
    SortedOn key l := by
  have hne : l.Pairwise fun a b => key a ≠ key b := List.pairwise_map.mp hnodup
  exact (h.and hne).imp fun ⟨hle, hne⟩ => lt_of_le_of_ne hle hne

theorem sortedOn_sortOn (hnodup : (l.map key).Nodup) : SortedOn key (sortOn key l) := by
  apply sortedOn_of_nodup (pairwise_sortOn key l)
  exact ((perm_sortOn key l).map key).nodup_iff.mpr hnodup

theorem SortedOn.nodup_map (h : SortedOn key l) : (l.map key).Nodup := by
  apply List.pairwise_map.mpr
  exact h.imp fun hlt => ne_of_lt hlt

/-- The elements decide a list in key order. -/
theorem SortedOn.eq_of_mem_iff (h : SortedOn key l) (h' : SortedOn key l')
    (hmem : ∀ a, a ∈ l ↔ a ∈ l') : l = l' := by
  have hirrefl : Std.Irrefl fun a b : α => key a < key b := ⟨fun a => lt_irrefl _⟩
  have hasymm : Std.Antisymm fun a b : α => key a < key b :=
    ⟨fun a b hab hba => absurd hab (lt_asymm hba)⟩
  exact List.Pairwise.eq_of_mem_iff h h' hmem

theorem sortOn_eq_of_perm (hnodup : (l.map key).Nodup) (h : l.Perm l') :
    sortOn key l = sortOn key l' := by
  have hnodup' : (l'.map key).Nodup := (h.map key).nodup_iff.mp hnodup
  apply (sortedOn_sortOn hnodup).eq_of_mem_iff (sortedOn_sortOn hnodup')
  intro a
  rw [mem_sortOn, mem_sortOn, h.mem_iff]

theorem insertOn_sortOn {a : α} (hnodup : (l.map key).Nodup) (ha : key a ∉ l.map key) :
    insertOn key a (sortOn key l) = sortOn key (l ++ [a]) := by
  have hperm : (insertOn key a (sortOn key l)).Perm (l ++ [a]) := by
    calc (insertOn key a (sortOn key l)).Perm (a :: sortOn key l) := perm_insertOn key a _
      _ |>.Perm (a :: l) := (perm_sortOn key l).cons a
      _ |>.Perm (l ++ [a]) := (List.perm_append_singleton a l).symm
  have hall : ((l ++ [a]).map key).Nodup := by
    rw [List.map_append, List.nodup_append]
    refine ⟨hnodup, List.nodup_singleton _, ?_⟩
    intro k hk k' hk' heq
    rw [List.map_singleton, List.mem_singleton] at hk'
    exact ha (hk' ▸ heq ▸ hk)
  have hsorted : SortedOn key (insertOn key a (sortOn key l)) := by
    apply sortedOn_of_nodup (pairwise_insertOn (pairwise_sortOn key l))
    exact (hperm.map key).nodup_iff.mpr hall
  apply hsorted.eq_of_mem_iff (sortedOn_sortOn hall)
  intro x
  rw [hperm.mem_iff, mem_sortOn]

/-- A table built from some elements takes another one exactly when its key is new, and is
then the table of all of them. -/
theorem insertNew_sortOn {a : α} {t : List α} (hnodup : (l.map key).Nodup) :
    insertNew key a (sortOn key l) = some t ↔
      ((l ++ [a]).map key).Nodup ∧ t = sortOn key (l ++ [a]) := by
  have hall : ((l ++ [a]).map key).Nodup ↔ key a ∉ l.map key := by
    rw [List.map_append, List.map_singleton, List.nodup_append_comm, List.singleton_append,
      List.nodup_cons]
    exact ⟨fun h => h.1, fun h => ⟨h, hnodup⟩⟩
  unfold insertNew
  by_cases ha : key a ∈ l.map key
  · rw [if_pos (mem_map_sortOn.mpr ha)]
    constructor
    · intro h
      cases h
    · intro h
      exact absurd ha (hall.mp h.1)
  · rw [if_neg (fun h => ha (mem_map_sortOn.mp h)), Option.some.injEq, insertOn_sortOn hnodup ha]
    constructor
    · intro h
      exact ⟨hall.mpr ha, h.symm⟩
    · intro h
      exact h.2.symm

theorem insertOrRefuse_ok_iff {ε β : Type} {a : α} {refusal : ε} {store : List α → β} {r : β}
    (hnodup : (l.map key).Nodup) :
    insertOrRefuse key refusal store a (sortOn key l) = .ok r ↔
      ((l ++ [a]).map key).Nodup ∧ r = store (sortOn key (l ++ [a])) := by
  unfold insertOrRefuse
  cases h : insertNew key a (sortOn key l) with
  | none =>
      constructor
      · intro h'
        cases h'
      · rintro ⟨hall, -⟩
        rw [(insertNew_sortOn hnodup).mpr ⟨hall, rfl⟩] at h
        cases h
  | some t =>
      obtain ⟨hall, rfl⟩ := (insertNew_sortOn hnodup).mp h
      constructor
      · intro h'
        cases h'
        exact ⟨hall, rfl⟩
      · rintro ⟨-, rfl⟩
        rfl

/-! ### Sorted without repetition -/

theorem mem_destutter'_ne [DecidableEq α] (x a : α) (l : List α) :
    x ∈ l.destutter' (· ≠ ·) a ↔ x = a ∨ x ∈ l := by
  induction l generalizing a with
  | nil => simp
  | cons b rest ih =>
      by_cases hab : a = b
      · rw [List.destutter'_cons_neg _ (by simp [hab]), ih, hab]
        simp
      · rw [List.destutter'_cons_pos _ hab, List.mem_cons, ih, List.mem_cons]

/-- Dropping an element equal to the one before it drops no element. -/
theorem mem_destutter_ne [DecidableEq α] {x : α} : x ∈ l.destutter (· ≠ ·) ↔ x ∈ l := by
  cases l with
  | nil => simp
  | cons a rest => rw [List.destutter_cons', mem_destutter'_ne, List.mem_cons]

theorem sortedOn_destutter [DecidableEq α] (hkey : Function.Injective key)
    (h : l.Pairwise fun a b => key a ≤ key b) : SortedOn key (l.destutter (· ≠ ·)) := by
  have htrans : IsTrans α fun a b => key a < key b := ⟨fun _ _ _ => lt_trans⟩
  have hle := List.isChain_iff_getElem.mp (h.sublist (List.destutter_sublist (· ≠ ·) l)).isChain
  have hne := List.isChain_iff_getElem.mp (List.isChain_destutter (· ≠ ·) l)
  apply List.isChain_iff_pairwise.mp
  apply List.isChain_iff_getElem.mpr
  intro i hi
  exact lt_of_le_of_ne (hle i hi) fun heq => hne i hi (hkey heq)

end Sorting

/-! ### The first element of each key -/

section Firsts

variable {α κ : Type} [DecidableEq κ] {key : α → κ} {l : List α} {a : α}

def firstsOn (key : α → κ) : List α → List α
  | [] => []
  | a :: rest => a :: (firstsOn key rest).filter fun b => key b ≠ key a

theorem mem_of_mem_firstsOn (h : a ∈ firstsOn key l) : a ∈ l := by
  induction l with
  | nil => cases h
  | cons b rest ih =>
      rcases List.mem_cons.mp h with rfl | h
      · exact List.mem_cons_self
      · exact List.mem_cons_of_mem _ (ih (List.mem_filter.mp h).1)

theorem exists_mem_firstsOn (h : a ∈ l) : ∃ b ∈ firstsOn key l, key b = key a := by
  induction l with
  | nil => cases h
  | cons b rest ih =>
      by_cases hkey : key a = key b
      · exact ⟨b, List.mem_cons_self, hkey.symm⟩
      · rcases List.mem_cons.mp h with rfl | h
        · exact absurd rfl hkey
        · obtain ⟨c, hc, hcb⟩ := ih h
          refine ⟨c, List.mem_cons_of_mem _ (List.mem_filter.mpr ⟨hc, ?_⟩), hcb⟩
          rw [hcb]
          exact decide_eq_true hkey

theorem mem_map_firstsOn {k : κ} : k ∈ (firstsOn key l).map key ↔ k ∈ l.map key := by
  simp only [List.mem_map]
  constructor
  · rintro ⟨a, ha, rfl⟩
    exact ⟨a, mem_of_mem_firstsOn ha, rfl⟩
  · rintro ⟨a, ha, rfl⟩
    exact exists_mem_firstsOn ha

theorem nodup_firstsOn (key : α → κ) (l : List α) : ((firstsOn key l).map key).Nodup := by
  induction l with
  | nil => exact List.nodup_nil
  | cons a rest ih =>
      rw [firstsOn, List.map_cons, List.nodup_cons]
      constructor
      · intro h
        obtain ⟨b, hb, hkey⟩ := List.mem_map.mp h
        have hne := of_decide_eq_true (List.mem_filter.mp hb).2
        exact hne hkey
      · exact ih.sublist (List.filter_sublist.map key)

theorem firstsOn_of_nodup (h : (l.map key).Nodup) : firstsOn key l = l := by
  induction l with
  | nil => rfl
  | cons a rest ih =>
      rw [List.map_cons, List.nodup_cons] at h
      rw [firstsOn, ih h.2]
      congr 1
      apply List.filter_eq_self.mpr
      intro b hb
      apply decide_eq_true
      intro heq
      exact h.1 (heq ▸ List.mem_map_of_mem hb)

theorem firstsOn_concat (a : α) (l : List α) :
    firstsOn key (l ++ [a]) =
      if key a ∈ l.map key then firstsOn key l else firstsOn key l ++ [a] := by
  induction l with
  | nil => rfl
  | cons b rest ih =>
      rw [List.cons_append, firstsOn, firstsOn, ih]
      by_cases hrest : key a ∈ rest.map key
      · have hall : key a ∈ (b :: rest).map key := List.mem_cons_of_mem _ hrest
        rw [if_pos hrest, if_pos hall]
      · rw [if_neg hrest, List.filter_append]
        by_cases hkey : key a = key b
        · have hall : key a ∈ (b :: rest).map key := by simp [hkey]
          rw [if_pos hall]
          simp [hkey]
        · have hall : key a ∉ (b :: rest).map key := by
            rw [List.map_cons, List.mem_cons]
            intro h
            exact h.elim hkey hrest
          rw [if_neg hall]
          simp [hkey]

/-- Elements that come later do not displace the first ones. -/
theorem mem_firstsOn_append {l' : List α} (h : a ∈ firstsOn key l) :
    a ∈ firstsOn key (l ++ l') := by
  induction l with
  | nil => cases h
  | cons b rest ih =>
      rcases List.mem_cons.mp h with rfl | h
      · exact List.mem_cons_self
      · obtain ⟨hmem, hne⟩ := List.mem_filter.mp h
        exact List.mem_cons_of_mem _ (List.mem_filter.mpr ⟨ih hmem, hne⟩)

end Firsts

/-! ### Claiming keys -/

section Claims

variable {α κ ν ε : Type} [DecidableEq κ] {entry : α → κ × ν} {refuse : ν → α → ε}
  {taken t : List (κ × ν)} {xs : List α}

/-- Take the key of an element, or refuse it over what is held under that key. -/
def claim (entry : α → κ × ν) (refuse : ν → α → ε) (taken : List (κ × ν)) (a : α) :
    Except ε (List (κ × ν)) :=
  match taken.lookup (entry a).1 with
  | some held => .error (refuse held a)
  | none => .ok (taken ++ [entry a])

theorem lookup_eq_none_iff_notMem {k : κ} : taken.lookup k = none ↔ k ∉ taken.map Prod.fst := by
  rw [List.lookup_eq_none_iff]
  constructor
  · intro h hk
    obtain ⟨p, hp, rfl⟩ := List.mem_map.mp hk
    simpa using h p hp
  · intro h p hp
    have hne : k ≠ p.1 := by
      rintro rfl
      exact h (List.mem_map_of_mem hp)
    simpa using hne

theorem claim_ok_iff {a : α} :
    claim entry refuse taken a = .ok t ↔
      (entry a).1 ∉ taken.map Prod.fst ∧ t = taken ++ [entry a] := by
  rw [← lookup_eq_none_iff_notMem]
  unfold claim
  cases hheld : taken.lookup (entry a).1 with
  | some held => simp
  | none => simp [eq_comm]

/-- Claiming succeeds exactly when no key is claimed twice. -/
theorem claimAll_ok_iff (htaken : (taken.map Prod.fst).Nodup) :
    xs.foldlM (claim entry refuse) taken = .ok t ↔
      ((taken ++ xs.map entry).map Prod.fst).Nodup ∧ t = taken ++ xs.map entry := by
  induction xs generalizing taken with
  | nil =>
      rw [List.map_nil, List.append_nil]
      constructor
      · intro h
        cases h
        exact ⟨htaken, rfl⟩
      · rintro ⟨-, rfl⟩
        rfl
  | cons a rest ih =>
      have hreorder : taken ++ (a :: rest).map entry =
          (taken ++ [entry a]) ++ rest.map entry := by simp
      have hfirst : ((taken ++ [entry a]).map Prod.fst).Nodup ↔
          (entry a).1 ∉ taken.map Prod.fst := by
        rw [List.map_append, List.map_singleton, List.nodup_append_comm,
          List.singleton_append, List.nodup_cons]
        exact ⟨fun h => h.1, fun h => ⟨h, htaken⟩⟩
      rw [List.foldlM_cons, bindOk_iff, hreorder]
      constructor
      · rintro ⟨t', hclaim, hrest⟩
        obtain ⟨hnew, rfl⟩ := claim_ok_iff.mp hclaim
        exact (ih (hfirst.mpr hnew)).mp hrest
      · rintro ⟨hnodup, rfl⟩
        have htail : ((taken ++ [entry a]).map Prod.fst).Nodup := by
          rw [List.map_append] at hnodup
          exact (List.nodup_append.mp hnodup).1
        exact ⟨_, claim_ok_iff.mpr ⟨hfirst.mp htail, rfl⟩, (ih htail).mpr ⟨hnodup, rfl⟩⟩

end Claims

end Batpak.Util
