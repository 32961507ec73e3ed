/-
Module: Batpak.Util.Packed
Purpose: Fixed-width fields in packed records: unsigned numbers as little-endian or big-endian
  bytes, byte arrays as they are, and cursors that take one field off the front of a buffer.
Trusted boundary: none
Main exports: leBytes, leValue_leBytes
-/
import Mathlib

namespace Batpak.Util

/-! ### Numbers as bytes -/

/-- The low `n` bytes of a number, least significant first. -/
def leBytes : Nat → Nat → List UInt8
  | 0, _ => []
  | n + 1, v => UInt8.ofNat v :: leBytes n (v / 256)

def leValue : List UInt8 → Nat
  | [] => 0
  | b :: rest => b.toNat + 256 * leValue rest

@[simp] theorem length_leBytes (n v : Nat) : (leBytes n v).length = n := by
  induction n generalizing v with
  | zero => rfl
  | succ n ih => simp [leBytes, ih]

theorem leValue_leBytes {n v : Nat} (h : v < 256 ^ n) : leValue (leBytes n v) = v := by
  induction n generalizing v with
  | zero =>
      rw [Nat.pow_zero, Nat.lt_one_iff] at h
      simp [leBytes, leValue, h]
  | succ n ih =>
      have hrest : v / 256 < 256 ^ n := by
        rw [Nat.pow_succ] at h
        exact Nat.div_lt_of_lt_mul (by omega)
      have hbyte : (UInt8.ofNat v).toNat = v % 256 := by simp
      rw [leBytes, leValue, ih hrest, hbyte]
      omega

/-- The low `n` bytes of a number, most significant first. -/
def beBytes (n v : Nat) : List UInt8 :=
  (leBytes n v).reverse

def beValue (bytes : List UInt8) : Nat :=
  bytes.foldl (fun acc b => acc * 256 + b.toNat) 0

@[simp] theorem length_beBytes (n v : Nat) : (beBytes n v).length = n := by
  rw [beBytes, List.length_reverse, length_leBytes]

theorem beValue_reverse (bytes : List UInt8) : beValue bytes.reverse = leValue bytes := by
  induction bytes with
  | nil => rfl
  | cons b rest ih =>
      rw [beValue] at ih ⊢
      rw [List.reverse_cons, List.foldl_append, ih, leValue]
      simp only [List.foldl_cons, List.foldl_nil]
      omega

theorem beValue_beBytes {n v : Nat} (h : v < 256 ^ n) : beValue (beBytes n v) = v := by
  rw [beBytes, beValue_reverse, leValue_leBytes h]

/-! ### Fields -/

/-- Unsigned numbers of a fixed number of bytes. -/
class FixedWidth (α : Type) where
  width : Nat
  toNat : α → Nat
  ofNat : Nat → α
  toNat_lt : ∀ a, toNat a < 256 ^ width
  ofNat_toNat : ∀ a, ofNat (toNat a) = a

instance : FixedWidth UInt16 where
  width := 2
  toNat := UInt16.toNat
  ofNat := UInt16.ofNat
  toNat_lt a := a.toNat_lt
  ofNat_toNat _ := by simp

instance : FixedWidth UInt32 where
  width := 4
  toNat := UInt32.toNat
  ofNat := UInt32.ofNat
  toNat_lt a := a.toNat_lt
  ofNat_toNat _ := by simp

instance : FixedWidth UInt64 where
  width := 8
  toNat := UInt64.toNat
  ofNat := UInt64.ofNat
  toNat_lt a := a.toNat_lt
  ofNat_toNat _ := by simp

instance : FixedWidth (BitVec 128) where
  width := 16
  toNat := BitVec.toNat
  ofNat := BitVec.ofNat 128
  toNat_lt a := a.isLt
  ofNat_toNat _ := by simp

section Cursor

variable {α : Type} [FixedWidth α]

/-- `to_le_bytes`. -/
def putLe (a : α) : List UInt8 :=
  leBytes (FixedWidth.width α) (FixedWidth.toNat a)

/-- Take a number off the front of a buffer that is long enough. -/
def getLe (α : Type) [FixedWidth α] (buf : List UInt8) : α × List UInt8 :=
  (FixedWidth.ofNat (leValue (buf.take (FixedWidth.width α))), buf.drop (FixedWidth.width α))

@[simp] theorem length_putLe (a : α) : (putLe a).length = FixedWidth.width α :=
  length_leBytes ..

@[simp] theorem getLe_putLe (a : α) (rest : List UInt8) : getLe α (putLe a ++ rest) = (a, rest) := by
  have hlength := length_putLe a
  rw [getLe, List.take_append_of_le_length (Nat.le_of_eq hlength.symm),
    List.take_of_length_le (Nat.le_of_eq hlength), List.drop_left' hlength, putLe,
    leValue_leBytes (FixedWidth.toNat_lt a), FixedWidth.ofNat_toNat]

@[simp] theorem getLe_putLe_end (a : α) : getLe α (putLe a) = (a, []) := by
  simpa using getLe_putLe a []

/-- The parts of a file that starts with a magic of six bytes, a version and a checksum. -/
theorem headed_parts {magic : List UInt8} (hmagic : magic.length = 6) (version : UInt16)
    (crc : UInt32) (body : List UInt8) :
    (magic ++ (putLe version ++ (putLe crc ++ body))).take 6 = magic ∧
      (magic ++ (putLe version ++ (putLe crc ++ body))).drop 6 =
        putLe version ++ (putLe crc ++ body) ∧
      (magic ++ (putLe version ++ (putLe crc ++ body))).drop 8 = putLe crc ++ body ∧
      (magic ++ (putLe version ++ (putLe crc ++ body))).drop 12 = body ∧
      12 ≤ (magic ++ (putLe version ++ (putLe crc ++ body))).length := by
  refine ⟨List.take_left' hmagic, List.drop_left' hmagic, ?_, ?_, ?_⟩
  · rw [← List.append_assoc]
    exact List.drop_left' (by simp [hmagic, FixedWidth.width])
  · rw [← List.append_assoc, ← List.append_assoc]
    exact List.drop_left' (by simp [hmagic, FixedWidth.width])
  · simp [hmagic, FixedWidth.width]
    omega

end Cursor

/-- Take a byte array off the front. -/
def getBytes (n : Nat) (buf : List UInt8) : Vector UInt8 n × List UInt8 :=
  (Vector.ofFn fun i => buf.getD i 0, buf.drop n)

@[simp] theorem getBytes_toList {n : Nat} (bytes : Vector UInt8 n) (rest : List UInt8) :
    getBytes n (bytes.toList ++ rest) = (bytes, rest) := by
  have hlength : bytes.toList.length = n := by simp
  rw [getBytes, List.drop_left' hlength]
  congr 1
  ext i hi
  have hget : (bytes.toList ++ rest)[i]? = some bytes[i] := by
    rw [List.getElem?_append_left (by omega)]
    simp
  simp [List.getD, hget]

end Batpak.Util
