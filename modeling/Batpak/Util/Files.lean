/-
Module: Batpak.Util.Files
Purpose: A directory listing: files under numeric names, kept in name order with one file
  per name.
Trusted boundary: none
Main exports: Files, contains
-/
import Mathlib.Data.List.Sort

namespace Batpak.Util

variable {α : Type*}

/-- Files in name order; the order is strict, so a name occurs at most once. -/
structure Files (α : Type*) where
  entries : List (Nat × α)
  sorted : entries.Pairwise fun a b => a.1 < b.1

namespace Files

def empty : Files α :=
  ⟨[], .nil⟩

def contains (fs : Files α) (name : Nat) : Bool :=
  fs.entries.any fun e => e.1 == name

def find? (fs : Files α) (name : Nat) : Option α :=
  (fs.entries.find? fun e => e.1 == name).map Prod.snd

/-- The newest file is the one with the highest name. -/
def newest? (fs : Files α) : Option Nat :=
  fs.entries.getLast?.map Prod.fst

def keep (fs : Files α) (p : Nat → Bool) : Files α where
  entries := fs.entries.filter fun e => p e.1
  sorted := fs.sorted.filter _

def remove (fs : Files α) (name : Nat) : Files α :=
  fs.keep fun n => n != name

/-- Change the contents of one file. -/
def modify (fs : Files α) (name : Nat) (g : α → α) : Files α where
  entries := fs.entries.map fun e => if e.1 = name then (e.1, g e.2) else e
  sorted := by
    rw [List.pairwise_map]
    apply fs.sorted.imp
    intro a b hab
    split <;> split <;> exact hab

def insertEntry (name : Nat) (a : α) : List (Nat × α) → List (Nat × α)
  | [] => [(name, a)]
  | e :: rest =>
      if name < e.1 then (name, a) :: e :: rest
      else if name = e.1 then (name, a) :: rest
      else e :: insertEntry name a rest

theorem mem_insertEntry {name : Nat} {a : α} {entries : List (Nat × α)} {e : Nat × α}
    (h : e ∈ insertEntry name a entries) : e = (name, a) ∨ e ∈ entries := by
  induction entries with
  | nil => exact .inl (by simpa [insertEntry] using h)
  | cons x rest ih =>
      unfold insertEntry at h
      split at h
      · exact List.mem_cons.mp h
      · split at h
        · exact (List.mem_cons.mp h).imp_right (List.mem_cons_of_mem x)
        · rcases List.mem_cons.mp h with rfl | h
          · exact .inr List.mem_cons_self
          · exact (ih h).imp_right (List.mem_cons_of_mem x)

theorem insertEntry_sorted (name : Nat) (a : α) {entries : List (Nat × α)}
    (h : entries.Pairwise fun a b => a.1 < b.1) :
    (insertEntry name a entries).Pairwise fun a b => a.1 < b.1 := by
  induction entries with
  | nil => simp [insertEntry]
  | cons x rest ih =>
      rw [List.pairwise_cons] at h
      unfold insertEntry
      split
      · rename_i hlt
        rw [List.pairwise_cons]
        refine ⟨fun e he => ?_, List.pairwise_cons.mpr h⟩
        rcases List.mem_cons.mp he with rfl | he
        · exact hlt
        · exact Nat.lt_trans hlt (h.1 e he)
      · split
        · rename_i heq
          rw [List.pairwise_cons]
          exact ⟨fun e he => heq ▸ h.1 e he, h.2⟩
        · rw [List.pairwise_cons]
          refine ⟨fun e he => ?_, ih h.2⟩
          rcases mem_insertEntry he with rfl | he
          · dsimp only
            omega
          · exact h.1 e he

/-- Create a file, replacing one of the same name. -/
def put (fs : Files α) (name : Nat) (a : α) : Files α where
  entries := insertEntry name a fs.entries
  sorted := insertEntry_sorted name a fs.sorted

/-! ### What the operations do to the entries -/

@[simp] theorem remove_entries (fs : Files α) (name : Nat) :
    (fs.remove name).entries = fs.entries.filter fun e => e.1 != name := rfl

/-- A name below every other one goes to the front. -/
theorem put_entries_of_lt (fs : Files α) (name : Nat) (a : α)
    (h : ∀ e ∈ fs.entries, name < e.1) : (fs.put name a).entries = (name, a) :: fs.entries := by
  change insertEntry name a fs.entries = _
  cases hentries : fs.entries with
  | nil => rfl
  | cons e rest => simp [insertEntry, h e (by rw [hentries]; exact List.mem_cons_self)]

/-- A name above every other one goes to the end. -/
theorem put_entries_of_gt (fs : Files α) (name : Nat) (a : α)
    (h : ∀ e ∈ fs.entries, e.1 < name) : (fs.put name a).entries = fs.entries ++ [(name, a)] := by
  change insertEntry name a fs.entries = _
  generalize fs.entries = entries at h
  induction entries with
  | nil => rfl
  | cons e rest ih =>
      have he : e.1 < name := h e List.mem_cons_self
      have hnot : ¬name < e.1 := Nat.not_lt.mpr (Nat.le_of_lt he)
      have hne : name ≠ e.1 := Nat.ne_of_gt he
      simp only [insertEntry, hnot, hne, if_false, List.cons_append]
      rw [ih fun x hx => h x (List.mem_cons_of_mem _ hx)]

/-- Names are unique, so the first entry of a name is the only one. -/
theorem modify_entries_head {fs : Files α} {name : Nat} {a : α} {rest : List (Nat × α)}
    (hentries : fs.entries = (name, a) :: rest) (g : α → α) :
    (fs.modify name g).entries = (name, g a) :: rest := by
  have hsorted := fs.sorted
  rw [hentries, List.pairwise_cons] at hsorted
  have hrest : rest.map (fun e => if e.1 = name then (e.1, g e.2) else e) = rest :=
    (List.map_congr_left fun e he => if_neg (Nat.ne_of_gt (hsorted.1 e he))).trans (List.map_id _)
  simp only [modify, hentries, List.map_cons, if_true, hrest]

theorem modify_entries_last {fs : Files α} {name : Nat} {a : α} {init : List (Nat × α)}
    (hentries : fs.entries = init ++ [(name, a)]) (g : α → α) :
    (fs.modify name g).entries = init ++ [(name, g a)] := by
  have hsorted := fs.sorted
  rw [hentries, List.pairwise_append] at hsorted
  have hinit : init.map (fun e => if e.1 = name then (e.1, g e.2) else e) = init :=
    (List.map_congr_left fun e he =>
      if_neg (Nat.ne_of_lt (hsorted.2.2 e he (name, a) List.mem_cons_self))).trans (List.map_id _)
  simp only [modify, hentries, List.map_append, List.map_cons, List.map_nil, if_true, hinit]

theorem find?_head {fs : Files α} {name : Nat} {a : α} {rest : List (Nat × α)}
    (hentries : fs.entries = (name, a) :: rest) : fs.find? name = some a := by
  simp [find?, hentries]

@[simp] theorem find?_put (fs : Files α) (name : Nat) (a : α) :
    (fs.put name a).find? name = some a := by
  change ((insertEntry name a fs.entries).find? fun e => e.1 == name).map Prod.snd = some a
  generalize fs.entries = entries
  induction entries with
  | nil => simp [insertEntry]
  | cons e rest ih =>
      unfold insertEntry
      split
      · simp
      · split
        · simp
        · rename_i hne
          have hmiss : (e.1 == name) = false := beq_eq_false_iff_ne.mpr fun h => hne h.symm
          rw [List.find?_cons_of_neg (by simp [hmiss])]
          exact ih

/-- The front entry has a name of its own. -/
theorem filter_ne_head {fs : Files α} {name : Nat} {a : α} {rest : List (Nat × α)}
    (hentries : fs.entries = (name, a) :: rest) : (fs.remove name).entries = rest := by
  have hsorted := fs.sorted
  rw [hentries, List.pairwise_cons] at hsorted
  rw [remove_entries, hentries, List.filter_cons_of_neg (by simp), List.filter_eq_self]
  intro e he
  simpa using Nat.ne_of_gt (hsorted.1 e he)

end Files

end Batpak.Util
