/-
Module: Batpak.Util.Stretches
Purpose: Stretches of a list by start and length: consecutive stretches cut from lengths, what
  makes stretches a partition of the positions, and the stretch of the elements with one key.
Trusted boundary: none
Main exports: stretch, consecutive
-/
import Mathlib

namespace Batpak.Util

/-! ### Tilings -/

/-- The elements from a start on, as many as there are to be. -/
def stretch {α : Type} (l : List α) (start len : Nat) : List α :=
  (l.drop start).take len

/-- Stretches of the given lengths one behind the other; a length of zero takes no stretch. -/
def consecutive : Nat → List Nat → List (Nat × Nat)
  | _, [] => []
  | start, len :: rest =>
      if len = 0 then consecutive start rest
      else (start, len) :: consecutive (start + len) rest

/-- Lengths that differ by at most one, the longer ones first. -/
def evenLengths (total parts : Nat) : List Nat :=
  (List.range parts).map fun i => total / parts + if i < total % parts then 1 else 0

/-- The stretches cover every position below the total once, in order. -/
def Tiles (total : Nat) (ranges : List (Nat × Nat)) : Prop :=
  (ranges.flatMap fun r => List.range' r.1 r.2) = List.range total

theorem flatMap_consecutive (start : Nat) (lens : List Nat) :
    ((consecutive start lens).flatMap fun r => List.range' r.1 r.2) =
      List.range' start lens.sum := by
  induction lens generalizing start with
  | nil => rfl
  | cons len rest ih =>
      rw [consecutive]
      by_cases hzero : len = 0
      · rw [if_pos hzero, ih, hzero, List.sum_cons, Nat.zero_add]
      · rw [if_neg hzero, List.flatMap_cons, ih, List.sum_cons, List.range'_append_1]

theorem tiles_consecutive (lens : List Nat) : Tiles lens.sum (consecutive 0 lens) := by
  rw [Tiles, flatMap_consecutive, List.range_eq_range']

theorem sum_map_lt (parts bound : Nat) :
    ((List.range parts).map fun i => if i < bound then 1 else 0).sum = min parts bound := by
  induction parts with
  | zero => simp
  | succ parts ih =>
      rw [List.range_succ, List.map_append, List.sum_append, ih]
      by_cases h : parts < bound
      · simp only [h, List.map_cons, List.map_nil, List.sum_singleton, if_true]
        omega
      · simp only [h, List.map_cons, List.map_nil, List.sum_singleton, if_false]
        omega

theorem sum_evenLengths {total parts : Nat} (hparts : 0 < parts) :
    (evenLengths total parts).sum = total := by
  have hmod : total % parts < parts := Nat.mod_lt _ hparts
  have hsplit : (evenLengths total parts).sum =
      parts * (total / parts) + min parts (total % parts) := by
    rw [evenLengths, List.sum_map_add, sum_map_lt]
    simp
  rw [hsplit, Nat.min_eq_right (Nat.le_of_lt hmod)]
  exact Nat.div_add_mod total parts

/-! ### The stretch of one key -/

/-! ### Blocks of one width -/

section Blocks

variable {α β : Type} {f : α → List β} {width : Nat}

theorem length_flatMap_blocks (hf : ∀ a, (f a).length = width) (l : List α) :
    (l.flatMap f).length = l.length * width := by
  induction l with
  | nil => simp
  | cons a rest ih =>
      rw [List.flatMap_cons, List.length_append, ih, hf, List.length_cons, Nat.succ_mul, Nat.add_comm]

theorem drop_flatMap_blocks (hf : ∀ a, (f a).length = width) (l : List α) (n : Nat) :
    (l.flatMap f).drop (n * width) = (l.drop n).flatMap f := by
  induction n generalizing l with
  | zero => simp
  | succ n ih =>
      cases l with
      | nil => simp
      | cons a rest =>
          rw [List.flatMap_cons, Nat.succ_mul, Nat.add_comm, ← List.drop_drop,
            List.drop_left' (hf a), ih, List.drop_succ_cons]

theorem take_flatMap_blocks (hf : ∀ a, (f a).length = width) (l : List α) (n : Nat) :
    (l.flatMap f).take (n * width) = (l.take n).flatMap f := by
  induction n generalizing l with
  | zero => simp
  | succ n ih =>
      cases l with
      | nil => simp
      | cons a rest =>
          have hlong : (f a).length ≤ width + n * width := by
            rw [hf]
            exact Nat.le_add_right _ _
          rw [List.flatMap_cons, Nat.succ_mul, Nat.add_comm, List.take_append, hf,
            Nat.add_sub_cancel_left, ih, List.take_of_length_le hlong, List.take_succ_cons,
            List.flatMap_cons]

/-- A stretch of blocks is the blocks of a stretch. -/
theorem stretch_flatMap_blocks (hf : ∀ a, (f a).length = width) (l : List α) (start len : Nat) :
    stretch (l.flatMap f) (start * width) (len * width) = (stretch l start len).flatMap f := by
  rw [stretch, stretch, drop_flatMap_blocks hf, take_flatMap_blocks hf]

/-- Blocks come apart again. -/
theorem map_stretch_blocks (hf : ∀ a, (f a).length = width) (l : List α) :
    ((List.range l.length).map fun i => stretch (l.flatMap f) (i * width) width) = l.map f := by
  apply List.ext_getElem
  · simp
  · intro i hi _
    rw [List.length_map, List.length_range] at hi
    have hone := stretch_flatMap_blocks hf l i 1
    rw [Nat.one_mul] at hone
    have hstretch : stretch l i 1 = [l[i]] := by
      rw [stretch, List.drop_eq_getElem_cons hi, List.take_succ_cons, List.take_zero]
    rw [List.getElem_map, List.getElem_range, hone, hstretch, List.getElem_map,
      List.flatMap_singleton]

/-- Stretches that cover every position are, together, the list. -/
theorem flatMap_stretch_of_tiles {l : List α} {ranges : List (Nat × Nat)}
    (h : Tiles l.length ranges) : (ranges.flatMap fun r => stretch l r.1 r.2) = l := by
  have hstretch : ∀ start len, stretch l start len = (List.range' start len).filterMap (l[·]?) := by
    intro start len
    induction len generalizing start with
    | zero => rw [stretch, List.take_zero, List.range'_zero, List.filterMap_nil]
    | succ len ih =>
        rw [List.range'_succ, List.filterMap_cons, ← ih]
        by_cases hin : start < l.length
        · rw [List.getElem?_eq_getElem hin, stretch, List.drop_eq_getElem_cons hin,
            List.take_succ_cons]
          rfl
        · have hout := Nat.not_lt.mp hin
          rw [List.getElem?_eq_none hout, stretch, stretch, List.drop_of_length_le hout,
            List.drop_of_length_le (Nat.le_succ_of_le hout), List.take_nil, List.take_nil]
  have hrange : (List.range l.length).filterMap (l[·]?) = l := by
    have hall := hstretch 0 l.length
    rw [stretch, List.drop_zero, List.take_length, ← List.range_eq_range'] at hall
    exact hall.symm
  simp only [hstretch]
  rw [← List.filterMap_flatMap, h, hrange]

end Blocks

section Keys

variable {α κ : Type} [DecidableEq κ] {key : α → κ} {l : List α} {k : κ} {start len : Nat}

theorem stretch_sublist (l : List α) (start len : Nat) : (stretch l start len).Sublist l :=
  (List.take_sublist ..).trans (List.drop_sublist ..)

theorem length_stretch (h : start + len ≤ l.length) : (stretch l start len).length = len := by
  rw [stretch, List.length_take, List.length_drop]
  omega

theorem stretch_append {before current rest : List α} :
    stretch (before ++ current ++ rest) before.length current.length = current := by
  simp [stretch]

/-- Where it starts is then determined. -/
theorem start_of_stretch_eq_filter (hlen : 0 < len) (hfit : start + len ≤ l.length)
    (hall : stretch l start len = l.filter fun a => key a = k) :
    start = l.findIdx fun a => key a = k := by
  have hsplit : l = l.take start ++ (stretch l start len ++ l.drop (start + len)) := by
    rw [stretch, ← List.drop_drop, List.take_append_drop, List.take_append_drop]
  have hlength : (stretch l start len).length = len := length_stretch hfit
  have hnone : (l.take start).filter (fun a => key a = k) = [] := by
    have hcount := congrArg (fun m => (m.filter fun a => decide (key a = k)).length) hsplit
    have hself : (stretch l start len).filter (fun a => key a = k) = stretch l start len := by
      rw [hall, List.filter_filter]
      simp
    simp only [List.filter_append, List.length_append, hself, ← hall] at hcount
    apply List.eq_nil_of_length_eq_zero
    omega
  have hbefore : ∀ a ∈ l.take start, key a ≠ k := by
    intro a ha
    simpa using List.filter_eq_nil_iff.mp hnone a ha
  obtain ⟨a, rest, hcons⟩ : ∃ a rest, stretch l start len = a :: rest := by
    cases hs : stretch l start len with
    | nil =>
        rw [hs] at hlength
        simp at hlength
        omega
    | cons a rest => exact ⟨a, rest, rfl⟩
  have ha : key a = k := by
    have hmem : a ∈ l.filter fun a => key a = k := by
      rw [← hall, hcons]
      exact List.mem_cons_self
    simpa using (List.mem_filter.mp hmem).2
  have hnotBefore : (l.take start).findIdx (fun a => key a = k) = (l.take start).length := by
    apply List.findIdx_eq_length.mpr
    simpa using hbefore
  have htake : (l.take start).length = start := by
    rw [List.length_take]
    omega
  have hfind : l.findIdx (fun a => key a = k) =
      (l.take start ++ (stretch l start len ++ l.drop (start + len))).findIdx fun a => key a = k :=
    congrArg _ hsplit
  rw [hfind, List.findIdx_append, hnotBefore, if_neg (Nat.lt_irrefl _), hcons, List.cons_append,
    List.findIdx_cons]
  simp [ha, htake]

end Keys

/-! ### The last value of a key -/

section Updates

variable {α κ β : Type} [DecidableEq κ]

/-- Store every element's value under its key, one after another. -/
def storeAll (key : α → κ) (value : α → β) (l : List α) : κ → Option β :=
  l.foldl (fun m a => Function.update m (key a) (some (value a))) fun _ => none

theorem storeAll_apply (key : α → κ) (value : α → β) (l : List α) (k : κ) :
    storeAll key value l k = (l.filter fun a => key a = k).getLast?.map value := by
  induction l using List.reverseRecOn with
  | nil => rfl
  | append_singleton rest a ih =>
      rw [storeAll, List.foldl_append, List.foldl_cons, List.foldl_nil, List.filter_append]
      by_cases h : key a = k
      · subst h
        simp
      · rw [Function.update_of_ne (Ne.symm h)]
        rw [storeAll] at ih
        simp [ih, h]

end Updates

end Batpak.Util
