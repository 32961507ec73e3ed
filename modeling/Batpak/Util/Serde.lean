/-
Module: Batpak.Util.Serde
Purpose: Serializers and deserializers of plain data over MessagePack values, each with the values
  that survive the way there and back.
Trusted boundary: none
Main exports: Serde, Serde.uint
-/
import Batpak.Util.Msgpack
import Batpak.Util.Packed

namespace Batpak.Util

theorem bind_of_eq_some {α β : Type} {x : Option α} {f : α → Option β} {a : α} {b : β}
    (hx : x = some a) (hf : f a = some b) : (x >>= f) = some b := by
  subst hx
  exact hf

/-- How a type is written and read. What `Fits` comes back as it was. -/
structure Serde (α : Type) where
  ser : α → Msgpack
  de : Msgpack → Option α
  Fits : α → Prop
  de_ser : ∀ a, Fits a → de (ser a) = some a

namespace Serde

/-! ### Scalars -/

theorem natCast_bounds {n bits : Nat} (h : n < 2 ^ bits) :
    0 ≤ (n : Int) ∧ (n : Int) < 2 ^ bits := by
  have hcast : ((2 ^ bits : Nat) : Int) = 2 ^ bits := by norm_cast
  exact ⟨Int.natCast_nonneg n, by omega⟩

def uint (bits : Nat) : Serde Nat where
  ser n := .int n
  de
    | .int n => if 0 ≤ n ∧ n < 2 ^ bits then some n.toNat else none
    | _ => none
  Fits n := n < 2 ^ bits
  de_ser := by
    intro n h
    simp only [natCast_bounds h, and_self, if_true, Int.toNat_natCast]

def sint (bits : Nat) : Serde Int where
  ser n := .int n
  de
    | .int n => if -2 ^ (bits - 1) ≤ n ∧ n < 2 ^ (bits - 1) then some n else none
    | _ => none
  Fits n := -2 ^ (bits - 1) ≤ n ∧ n < 2 ^ (bits - 1)
  de_ser _ h := if_pos h

/-- A string is also read from a binary of UTF-8 bytes. -/
def readString : Msgpack → Option String
  | .str bytes => String.fromUTF8? ⟨bytes.toArray⟩
  | .bin bytes => String.fromUTF8? ⟨bytes.toArray⟩
  | _ => none

def string : Serde String where
  ser s := .str s.toUTF8.data.toList
  de := readString
  Fits _ := True
  de_ser := by
    intro s _
    simp only [readString, Array.toArray_toList, String.fromUTF8?]
    exact dif_pos s.isValidUTF8

/-- A number as a binary of `n` bytes, most significant first. -/
def bin (n : Nat) : Serde Nat where
  ser v := .bin (beBytes n v)
  de
    | .bin bytes => if bytes.length = n then some (beValue bytes) else none
    | _ => none
  Fits v := v < 256 ^ n
  de_ser := by
    intro v h
    simp only [length_beBytes, if_true, beValue_beBytes h]

/-! ### Options and sequences -/

/-- Nil is `None`, anything else is read as the type. -/
def deOption {α : Type} (de : Msgpack → Option α) : Msgpack → Option (Option α)
  | .nil => some none
  | m => (de m).map some

theorem deOption_of_ne {α : Type} {de : Msgpack → Option α} {m : Msgpack} (h : m ≠ .nil) :
    deOption de m = (de m).map some := by
  cases m with
  | nil => exact absurd rfl h
  | _ => rfl

/-- `None` is nil, which no value of the type may be written as. -/
def option {α : Type} (s : Serde α) (hnil : ∀ a, s.ser a ≠ .nil) : Serde (Option α) where
  ser
    | none => .nil
    | some a => s.ser a
  de := deOption s.de
  Fits a := ∀ x ∈ a, s.Fits x
  de_ser := by
    intro a h
    cases a with
    | none => rfl
    | some x => rw [deOption_of_ne (hnil x), s.de_ser x (h x rfl), Option.map_some]

theorem mapM_map {α β : Type} {f : α → β} {g : β → Option α} {xs : List α}
    (h : ∀ x ∈ xs, g (f x) = some x) : (xs.map f).mapM g = some xs := by
  induction xs with
  | nil => rfl
  | cons x rest ih =>
      have hrest := ih fun y hy => h y (List.mem_cons_of_mem _ hy)
      rw [List.map_cons, List.mapM_cons, h x List.mem_cons_self, hrest]
      rfl

def list {α : Type} (s : Serde α) : Serde (List α) where
  ser xs := .array (xs.map s.ser)
  de
    | .array items => items.mapM s.de
    | _ => none
  Fits xs := ∀ x ∈ xs, s.Fits x
  de_ser _ h := mapM_map fun x hx => s.de_ser x (h x hx)

/-! ### Ordered maps -/

section SortedMap

variable {κ α : Type} [LinearOrder κ]

/-- Insert into a map kept in key order; an equal key gets the new value. -/
def insertKey (key : κ) (value : α) : List (κ × α) → List (κ × α)
  | [] => [(key, value)]
  | (k, v) :: rest =>
      if key < k then (key, value) :: (k, v) :: rest
      else if key = k then (key, value) :: rest
      else (k, v) :: insertKey key value rest

theorem insertKey_last {key : κ} {value : α} {entries : List (κ × α)}
    (h : ∀ e ∈ entries, e.1 < key) : insertKey key value entries = entries ++ [(key, value)] := by
  induction entries with
  | nil => rfl
  | cons e rest ih =>
      have hlt := h e List.mem_cons_self
      rw [insertKey, if_neg (not_lt_of_gt hlt), if_neg (ne_of_gt hlt),
        ih fun e he => h e (List.mem_cons_of_mem _ he), List.cons_append]

theorem foldl_insertKey {entries start : List (κ × α)}
    (h : (start ++ entries).Pairwise fun a b => a.1 < b.1) :
    entries.foldl (fun acc e => insertKey e.1 e.2 acc) start = start ++ entries := by
  induction entries generalizing start with
  | nil => simp
  | cons e rest ih =>
      have hlast : ∀ a ∈ start, a.1 < e.1 := by
        intro a ha
        exact (List.pairwise_append.mp h).2.2 a ha e List.mem_cons_self
      rw [List.foldl_cons, insertKey_last hlast]
      rw [List.append_cons] at h
      rw [ih h, List.append_assoc, List.singleton_append]

/-- A map that keeps its entries in key order; it is written in that order. -/
def sortedMap (k : Serde κ) (v : Serde α) : Serde (List (κ × α)) where
  ser entries := .map (entries.map fun e => (k.ser e.1, v.ser e.2))
  de
    | .map entries => do
        let found ← entries.mapM fun e => do
          let key ← k.de e.1
          let value ← v.de e.2
          return (key, value)
        return found.foldl (fun acc e => insertKey e.1 e.2 acc) []
    | _ => none
  Fits entries := entries.Pairwise (fun a b => a.1 < b.1) ∧
    ∀ e ∈ entries, k.Fits e.1 ∧ v.Fits e.2
  de_ser := by
    intro entries h
    have hread : (entries.map fun e => (k.ser e.1, v.ser e.2)).mapM (m := Option) (fun e => do
        let key ← k.de e.1
        let value ← v.de e.2
        return (key, value)) = some entries := by
      apply mapM_map
      intro e he
      simp [k.de_ser e.1 (h.2 e he).1, v.de_ser e.2 (h.2 e he).2]
    have hfold := @foldl_insertKey κ α _ entries [] h.1
    dsimp only
    rw [hread]
    exact congrArg some hfold

end SortedMap

end Serde

/-! ### Structs -/

/-- A struct is a map from its field names. -/
def structOf (fields : List (String × Msgpack)) : Msgpack :=
  .map (fields.map fun f => (Serde.string.ser f.1, f.2))

/-- The fields of a struct by name. A field given twice is refused. -/
def structFields : Msgpack → Option (List (String × Msgpack))
  | .map entries => do
      let fields ← entries.mapM fun e => (Serde.string.de e.1).map fun name => (name, e.2)
      if (fields.map Prod.fst).Nodup then some fields else none
  | _ => none

theorem structFields_structOf {fields : List (String × Msgpack)}
    (h : (fields.map Prod.fst).Nodup) : structFields (structOf fields) = some fields := by
  have hread : (fields.map fun f => (Serde.string.ser f.1, f.2)).mapM (m := Option)
      (fun e => (Serde.string.de e.1).map fun name => (name, e.2)) = some fields := by
    apply Serde.mapM_map
    intro f _
    simp [Serde.string.de_ser f.1 trivial]
  simp only [structFields, structOf, hread, Option.bind_eq_bind, Option.bind_some, h, if_true]

def fieldNamed (name : String) : List (String × Msgpack) → Option Msgpack
  | [] => none
  | (n, m) :: rest => if n = name then some m else fieldNamed name rest

def required {α : Type} (s : Serde α) (name : String) (fields : List (String × Msgpack)) :
    Option α := do
  let m ← fieldNamed name fields
  s.de m

/-- `#[serde(default)]` -/
def defaulted {α : Type} (s : Serde α) (default : α) (name : String)
    (fields : List (String × Msgpack)) : Option α :=
  match fieldNamed name fields with
  | none => some default
  | some m => s.de m

theorem required_ser {α : Type} {s : Serde α} {a : α} (name : String)
    {fields : List (String × Msgpack)} (hfield : fieldNamed name fields = some (s.ser a))
    (ha : s.Fits a) : required s name fields = some a := by
  simp [required, hfield, s.de_ser a ha]

theorem defaulted_ser {α : Type} {s : Serde α} {a default : α} (name : String)
    {fields : List (String × Msgpack)} (hfield : fieldNamed name fields = some (s.ser a))
    (ha : s.Fits a) : defaulted s default name fields = some a := by
  simp [defaulted, hfield, s.de_ser a ha]

end Batpak.Util
