/-
Module: Batpak.Proofs.InternerIds
Purpose: The forward map of the interner is its reverse table read backwards, as long as no call
  asks for an id behind the last one.
Trusted boundary: none
Main exports: interner_ids_injective, exhausted_ids_collide
-/
import Batpak.Store.IndexSnapshot
import Batpak.Util.Run

namespace Batpak.Store

open Batpak.Util

/-! ### Calls -/

inductive InternerCall where
  | intern (s : String)
  | toSnapshot
  | replaceFromFullSnapshot (strings : List String)
  deriving Repr, DecidableEq

namespace StringInterner

/-- A replacement that fails leaves the tables alone. -/
def apply (t : StringInterner) : InternerCall → StringInterner
  | .intern s => (t.intern s).2
  | .toSnapshot => t
  | .replaceFromFullSnapshot strings =>
      match StringInterner.replaceFromFullSnapshot strings with
      | .ok t' => t'
      | .error _ => t

/-- There is an id for the string. -/
def Fits (t : StringInterner) : InternerCall → Prop
  | .intern s => t.get s = none → t.nextId + 1 < 2 ^ 32
  | _ => True

instance decidableFits (t : StringInterner) : (call : InternerCall) → Decidable (t.Fits call)
  | .intern s => inferInstanceAs (Decidable (t.get s = none → t.nextId + 1 < 2 ^ 32))
  | .toSnapshot | .replaceFromFullSnapshot _ => inferInstanceAs (Decidable True)

/-- The call does not install another table. -/
def KeepsTable (t : StringInterner) : InternerCall → Prop
  | .replaceFromFullSnapshot strings => strings.drop 1 = t.toSnapshot
  | _ => True

/-! ### The tables agree -/

/-- Both tables hold the same pairs, and the next id is the next slot. -/
structure Aligned (t : StringInterner) : Prop where
  forward : t.forward = t.reverse.zipIdx.reverse
  next : t.nextId = t.reverse.length
  bound : t.nextId < 2 ^ 32
  sentinel : t.reverse.take 1 = [""]

variable {t : StringInterner} {s : String} {id : Nat}

theorem Aligned.resolve (h : t.Aligned) (hget : t.get s = some id) : t.resolve id = some s := by
  obtain ⟨before, behind, hsplit, -⟩ := List.lookup_eq_some_iff.mp hget
  have hmem : (s, id) ∈ t.reverse.zipIdx.reverse := by
    rw [← h.forward, hsplit]
    exact List.mem_append_right before List.mem_cons_self
  exact List.mk_mem_zipIdx_iff_getElem?.mp (List.mem_reverse.mp hmem)

theorem Aligned.injective {s' : String} (h : t.Aligned) (hget : t.get s = some id)
    (hget' : t.get s' = some id) : s = s' := by
  have hs := h.resolve hget
  rw [h.resolve hget'] at hs
  exact (Option.some.inj hs).symm

/-- A table that is stored and read back is the same table. -/
theorem Aligned.restored (h : t.Aligned) :
    StringInterner.replaceFromFullSnapshot t.fullSnapshot = .ok t := by
  have hreverse : "" :: t.toSnapshot = t.reverse := by
    rw [toSnapshot, ← List.singleton_append, ← h.sentinel, List.take_append_drop]
  have hlen : t.toSnapshot.length + 1 = t.nextId := by
    rw [h.next, ← hreverse, List.length_cons]
  have hforward : (t.toSnapshot.zipIdx 1).reverse ++ [("", 0)] = t.forward := by
    rw [h.forward, ← hreverse, List.zipIdx_cons, List.reverse_cons]
  unfold StringInterner.replaceFromFullSnapshot
  simp only [StringInterner.fullSnapshot, List.drop_one, List.tail_cons]
  rw [hlen, if_neg (Nat.not_le.mpr h.bound), hforward, hreverse]

theorem aligned_replaceFromFullSnapshot {strings : List String}
    (h : StringInterner.replaceFromFullSnapshot strings = .ok t) : t.Aligned := by
  unfold StringInterner.replaceFromFullSnapshot at h
  obtain ⟨hroom, h⟩ := ifError_ok_iff.mp h
  cases h
  constructor
  case forward => simp
  case next => simp
  case bound => exact Nat.not_le.mp hroom
  case sentinel => rfl

/-- An id that exists goes to the end of both tables. -/
theorem Aligned.intern (h : t.Aligned) (hfits : t.Fits (.intern s)) :
    (t.intern s).2.Aligned := by
  unfold StringInterner.intern
  cases hlookup : t.forward.lookup s with
  | some found => exact h
  | none =>
      dsimp only
      rw [if_pos (hfits hlookup)]
      constructor
      case forward => simp [h.forward, h.next, List.zipIdx_append]
      case next => simp [h.next]
      case bound => exact hfits hlookup
      case sentinel =>
          have hne : t.reverse ≠ [] := by
            intro hnil
            have hsentinel := h.sentinel
            simp [hnil] at hsentinel
          rw [List.take_append_of_le_length (List.length_pos_of_ne_nil hne), h.sentinel]

theorem Aligned.apply (h : t.Aligned) (call : InternerCall) (hfits : t.Fits call) :
    (t.apply call).Aligned := by
  cases call with
  | intern s => exact h.intern hfits
  | toSnapshot => exact h
  | replaceFromFullSnapshot strings =>
      change (match StringInterner.replaceFromFullSnapshot strings with
        | .ok t' => t'
        | .error _ => t).Aligned
      cases hres : StringInterner.replaceFromFullSnapshot strings with
      | ok t' => exact aligned_replaceFromFullSnapshot hres
      | error e => exact h

/-! ### Ids stay -/

theorem get_intern {s' : String} (hget : t.get s = some id) :
    (t.intern s').2.get s = some id := by
  unfold StringInterner.intern
  cases hlookup : t.forward.lookup s' with
  | some found => exact hget
  | none =>
      have hne : s ≠ s' := by
        rintro rfl
        rw [get, hlookup] at hget
        cases hget
      have hstored : ((s', t.nextId) :: t.forward).lookup s = some id := by
        rw [List.lookup_cons, beq_false_of_ne hne]
        exact hget
      dsimp only
      split
      · exact hstored
      · exact hstored

/-- A call that succeeds had an id to hand out, and hands out the id of its string. -/
theorem of_intern_ok {t' : StringInterner} (h : t.intern s = (.ok id, t')) :
    t.Fits (.intern s) ∧ t'.get s = some id := by
  unfold StringInterner.intern at h
  cases hlookup : t.forward.lookup s with
  | some found =>
      rw [hlookup] at h
      cases h
      refine ⟨fun hnone => ?_, hlookup⟩
      rw [get, hlookup] at hnone
      cases hnone
  | none =>
      rw [hlookup] at h
      dsimp only at h
      split at h
      next hroom =>
        cases h
        exact ⟨fun _ => hroom, List.lookup_cons_self⟩
      next => cases h

/-- A call that keeps the table keeps every id. -/
theorem Aligned.get_apply (h : t.Aligned) {call : InternerCall} (hkeeps : t.KeepsTable call)
    (hget : t.get s = some id) : (t.apply call).get s = some id := by
  cases call with
  | intern s' => exact get_intern hget
  | toSnapshot => exact hget
  | replaceFromFullSnapshot strings =>
      have hsame : StringInterner.replaceFromFullSnapshot strings = .ok t := by
        rw [← h.restored]
        unfold StringInterner.replaceFromFullSnapshot
        rw [hkeeps]
        rfl
      change (match StringInterner.replaceFromFullSnapshot strings with
        | .ok t' => t'
        | .error _ => t).get s = some id
      rw [hsame]
      exact hget

end StringInterner

/-- In a run that never asks for an id behind the last one, ids are injective, name their
strings, stay as long as the table is kept, and survive being stored. -/
theorem interner_ids_injective (calls : List InternerCall)
    (h : Guarded StringInterner.apply StringInterner.Fits .new calls) {t : StringInterner}
    (ht : t = run StringInterner.apply .new calls) :
    (∀ s s' id, t.get s = some id → t.get s' = some id → s = s') ∧
      (∀ s id t', t.intern s = (.ok id, t') → t'.get s = some id ∧ t'.resolve id = some s) ∧
      (∀ s id more, t.get s = some id →
        Guarded StringInterner.apply (fun t call => t.Fits call ∧ t.KeepsTable call) t more →
        (run StringInterner.apply t more).get s = some id) ∧
      StringInterner.replaceFromFullSnapshot t.fullSnapshot = .ok t := by
  have hnew : StringInterner.new.Aligned := ⟨rfl, rfl, by decide, rfl⟩
  have haligned : t.Aligned := by
    rw [ht]
    exact run_invariant (fun t call ht hfits => ht.apply call hfits) calls _ hnew h
  refine ⟨?injective, ?resolves, ?keeps, haligned.restored⟩
  case injective => exact fun s s' id => haligned.injective
  case resolves =>
      intro s id t' hintern
      obtain ⟨hfits, hget⟩ := StringInterner.of_intern_ok hintern
      have hnext : (t.intern s).2.Aligned := haligned.intern hfits
      rw [hintern] at hnext
      exact ⟨hget, hnext.resolve hget⟩
  case keeps =>
      intro s id more hget hmore
      have hrun := @run_invariant _ _ _ _ (fun t => t.Aligned ∧ t.get s = some id)
        (fun t call ht hok => ⟨ht.1.apply call hok.1, ht.1.get_apply hok.2 ht.2⟩) more t
        ⟨haligned, hget⟩ hmore
      exact hrun.2

/-- Two strings, a repeated call, a table restored from a snapshot, and a string behind it. -/
def internedRun : List InternerCall :=
  [.intern "account:1", .intern "ledger", .intern "account:1", .toSnapshot,
    .replaceFromFullSnapshot ["", "ledger", "account:1"], .intern "account:2"]

theorem restored_ids_injective :
    Guarded StringInterner.apply StringInterner.Fits .new internedRun ∧
      (run StringInterner.apply .new internedRun).fullSnapshot =
        ["", "ledger", "account:1", "account:2"] ∧
      StringInterner.replaceFromFullSnapshot
          (run StringInterner.apply .new internedRun).fullSnapshot =
        .ok (run StringInterner.apply .new internedRun) := by
  have hfits : Guarded StringInterner.apply StringInterner.Fits .new internedRun := by
    decide +kernel
  exact ⟨hfits, by decide +kernel, (interner_ids_injective _ hfits rfl).2.2.2⟩

/-- A string that is refused is stored under the last id. -/
theorem get_refused {t : StringInterner} {s : String} (hfull : t.nextId = 2 ^ 32 - 1)
    (hget : t.get s = none) : (t.intern s).2.get s = some (2 ^ 32 - 1) ∧
      (t.intern s).2.nextId = 2 ^ 32 - 1 ∧
      ∀ s', s' ≠ s → (t.intern s).2.get s' = t.get s' := by
  unfold StringInterner.get at hget
  unfold StringInterner.intern
  rw [hget]
  dsimp only
  rw [if_neg (by omega), hfull]
  refine ⟨List.lookup_cons_self, rfl, fun s' hne => ?_⟩
  unfold StringInterner.get
  rw [List.lookup_cons, beq_false_of_ne hne]

/-- A table that fits is installed, and knows no other string. -/
theorem replaced_table {table : List String} (hroom : table.length + 1 < 2 ^ 32) :
    ∃ t, StringInterner.replaceFromFullSnapshot ("" :: table) = .ok t ∧
      t.nextId = table.length + 1 ∧ ∀ s, s ∉ "" :: table → t.get s = none := by
  have hres : StringInterner.replaceFromFullSnapshot ("" :: table) =
      .ok ⟨(table.zipIdx 1).reverse ++ [("", 0)], "" :: table, table.length + 1⟩ := by
    unfold StringInterner.replaceFromFullSnapshot
    simp only [List.drop_one, List.tail_cons]
    rw [if_neg (Nat.not_le.mpr hroom)]
  refine ⟨_, hres, rfl, fun s hs => ?_⟩
  cases hget : StringInterner.get _ s with
  | none => rfl
  | some id =>
      have hslot := (StringInterner.aligned_replaceFromFullSnapshot hres).resolve hget
      exact absurd (List.mem_of_getElem? hslot) hs

/-- As many strings as there are ids. -/
theorem exists_full_table : ∃ table : List String,
    table.length + 1 = 2 ^ 32 - 1 ∧ "a" ∉ "" :: table ∧ "b" ∉ "" :: table := by
  have hother : ∀ s : String, s ≠ "" → s.toList.head? ≠ some 'x' → s ∉ "" ::
      (List.range (2 ^ 32 - 2)).map fun i => String.ofList (List.replicate (i + 1) 'x') := by
    intro s hempty hs hmem
    rcases List.mem_cons.mp hmem with hmem | hmem
    · exact hempty hmem
    · obtain ⟨i, -, rfl⟩ := List.mem_map.mp hmem
      simp [List.replicate_succ] at hs
  refine ⟨_, ?_, hother "a" (by decide) (by decide), hother "b" (by decide) (by decide)⟩
  rewrite [List.length_map, List.length_range]
  omega

/-- Behind a full table every string gets the last id. -/
theorem exhausted_ids_collide :
    ¬∀ (calls : List InternerCall) (t : StringInterner), t = run StringInterner.apply .new calls →
      ∀ s s' id, t.get s = some id → t.get s' = some id → s = s' := by
  intro h
  obtain ⟨table, hlen, ha, hb⟩ := exists_full_table
  obtain ⟨t, hres, hnext, hfresh⟩ := @replaced_table table (by omega)
  obtain ⟨hida, hnexta, hothers⟩ := get_refused (hnext.trans hlen) (hfresh "a" ha)
  have hbnone : (t.intern "a").2.get "b" = none := by
    rw [hothers "b" (by decide)]
    exact hfresh "b" hb
  obtain ⟨hidb, -⟩ := get_refused hnexta hbnone
  have hstart : StringInterner.new.apply (.replaceFromFullSnapshot ("" :: table)) = t := by
    change (match StringInterner.replaceFromFullSnapshot ("" :: table) with
      | .ok t' => t'
      | .error _ => StringInterner.new) = t
    rw [hres]
  have hrun : run StringInterner.apply .new
      [.replaceFromFullSnapshot ("" :: table), .intern "a", .intern "b"] =
        ((t.intern "a").2.intern "b").2 := by
    rw [run_cons, hstart]
    rfl
  have hab := h _ _ hrun.symm "a" "b" (2 ^ 32 - 1) (StringInterner.get_intern hida) hidb
  exact absurd hab (by decide)

end Batpak.Store
