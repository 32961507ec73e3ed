/-
Module: Batpak.Util.Bits
Purpose: Sets of small numbers kept as the bits of a 64-bit word, and the loop that visits
  the members of such a set by clearing the lowest set bit.
Trusted boundary: none
Main exports: trailingZeros, clearLowest_getLsbD
-/
import Mathlib.Data.Nat.Bitwise
import Mathlib.Data.List.Basic

namespace Batpak.Util

/-- Number of zero bits below the lowest set bit, 64 for the empty set. -/
def trailingZeros (bits : BitVec 64) : Nat :=
  ((List.range 64).find? bits.getLsbD).getD 64

/-- `bits & (bits - 1)`. -/
def clearLowest (bits : BitVec 64) : BitVec 64 :=
  bits &&& (bits - 1)

theorem trailingZeros_spec {bits : BitVec 64} (h : bits ≠ 0) :
    bits.getLsbD (trailingZeros bits) = true ∧
      ∀ i < trailingZeros bits, bits.getLsbD i = false := by
  unfold trailingZeros
  cases hfind : (List.range 64).find? bits.getLsbD with
  | none =>
      exfalso
      apply h
      apply BitVec.eq_of_getLsbD_eq
      intro i hi
      have hnone := List.find?_eq_none.mp hfind i (List.mem_range.mpr hi)
      simpa using hnone
  | some k =>
      refine ⟨List.find?_some hfind, ?_⟩
      intro i hi
      rw [List.find?_range_eq_some] at hfind
      have hlow := hfind.2.2 i hi
      simpa using hlow

/-- A number whose lowest set bit is the given one. -/
theorem eq_two_pow_mul_odd {n k : Nat} (hk : n.testBit k = true)
    (hlow : ∀ i < k, n.testBit i = false) : ∃ m, n = 2 ^ k * (2 * m + 1) := by
  have hmod : n % 2 ^ k = 0 := by
    apply Nat.eq_of_testBit_eq
    intro i
    rw [Nat.testBit_mod_two_pow, Nat.zero_testBit]
    by_cases hi : i < k
    · simp [hlow i hi]
    · simp [hi]
  have hodd : n / 2 ^ k % 2 = 1 := by
    rw [Nat.testBit_eq_decide_div_mod_eq, decide_eq_true_eq] at hk
    exact hk
  refine ⟨n / 2 ^ k / 2, ?_⟩
  have hn := Nat.div_add_mod n (2 ^ k)
  have hhalf := Nat.div_add_mod (n / 2 ^ k) 2
  rw [hodd] at hhalf
  rw [hhalf]
  omega

/-- Clearing the lowest set bit removes exactly that bit. -/
theorem clearLowest_getLsbD {bits : BitVec 64} (h : bits ≠ 0) (i : Nat) :
    (clearLowest bits).getLsbD i = (bits.getLsbD i && decide (i ≠ trailingZeros bits)) := by
  obtain ⟨hk, hlow⟩ := trailingZeros_spec h
  obtain ⟨m, hm⟩ := eq_two_pow_mul_odd hk hlow
  have hpos : 0 < bits.toNat := by
    rw [hm]
    exact Nat.mul_pos (Nat.two_pow_pos _) (Nat.succ_pos _)
  have hpred : (bits - 1).toNat = 2 ^ trailingZeros bits * (2 * m) + (2 ^ trailingZeros bits - 1) := by
    have hone : (1 : BitVec 64).toNat = 1 := rfl
    rw [BitVec.toNat_sub, hone]
    have hlt := bits.isLt
    have hpow : 0 < 2 ^ trailingZeros bits := Nat.two_pow_pos _
    have hsub : (2 ^ 64 - 1 + bits.toNat) % 2 ^ 64 = bits.toNat - 1 := by omega
    rw [hsub, hm, Nat.mul_add]
    omega
  have hbits : bits.toNat = 2 ^ trailingZeros bits * (2 * m + 1) + 0 := hm
  unfold clearLowest
  rw [BitVec.getLsbD_and, BitVec.getLsbD, BitVec.getLsbD, hpred, hbits,
    Nat.testBit_two_pow_mul_add _ (Nat.two_pow_pos _),
    Nat.testBit_two_pow_mul_add _ (Nat.sub_lt (Nat.two_pow_pos _) Nat.one_pos)]
  rcases Nat.lt_trichotomy i (trailingZeros bits) with hi | hi | hi
  · simp [hi]
  · simp [hi]
  · have hsub : i - trailingZeros bits = (i - trailingZeros bits - 1) + 1 := by omega
    have heven : 2 * m / 2 = m := by omega
    have hodd : (2 * m + 1) / 2 = m := by omega
    rw [if_neg (by omega), if_neg (by omega), hsub, Nat.testBit_succ, Nat.testBit_succ, heven,
      hodd]
    simp [Nat.ne_of_gt hi]

/-- The members in the order in which the loop `while bits != 0` visits them; every turn
clears one bit, so 64 turns are enough. -/
def peelBits : Nat → BitVec 64 → List Nat
  | 0, _ => []
  | turns + 1, bits =>
      if bits = 0 then [] else trailingZeros bits :: peelBits turns (clearLowest bits)

def setBits (bits : BitVec 64) : List Nat :=
  peelBits 64 bits

theorem mem_peelBits {turns : Nat} {bits : BitVec 64}
    (hlow : ∀ i, i + turns < 64 → bits.getLsbD i = false) (q : Nat) :
    q ∈ peelBits turns bits ↔ bits.getLsbD q = true := by
  induction turns generalizing bits with
  | zero =>
      have hzero : bits.getLsbD q = false := by
        by_cases hq : q < 64
        · exact hlow q hq
        · exact BitVec.getLsbD_of_ge bits q (by omega)
      simp [peelBits, hzero]
  | succ turns ih =>
      by_cases hbits : bits = 0
      · simp [peelBits, hbits]
      · obtain ⟨hk, hbelow⟩ := trailingZeros_spec hbits
        have hrest : ∀ i, i + turns < 64 → (clearLowest bits).getLsbD i = false := by
          intro i hi
          rw [clearLowest_getLsbD hbits]
          by_cases hone : i + (turns + 1) < 64
          · rw [hlow i hone]
            rfl
          · -- bit `i` is the lowest one this turn may still find set
            by_cases hi' : i = trailingZeros bits
            · simp [hi']
            · have hkle : ¬trailingZeros bits + (turns + 1) < 64 := by
                intro hlt
                rw [hlow _ hlt] at hk
                cases hk
              rw [hbelow i (by omega)]
              rfl
        rw [peelBits, if_neg hbits, List.mem_cons, ih hrest, clearLowest_getLsbD hbits]
        by_cases hq : q = trailingZeros bits
        · simp [hq, hk]
        · simp [hq]

/-- The loop visits exactly the members. -/
theorem mem_setBits {bits : BitVec 64} {q : Nat} :
    q ∈ setBits bits ↔ bits.getLsbD q = true := by
  apply mem_peelBits
  intro i hi
  omega

/-- `a & !b == 0`. -/
theorem subset_iff {a b : BitVec 64} :
    a &&& ~~~b = 0 ↔ ∀ i, a.getLsbD i = true → b.getLsbD i = true := by
  constructor
  · intro h i ha
    by_contra hb
    have hi : i < 64 := BitVec.lt_of_getLsbD ha
    have hbit := congrArg (fun v : BitVec 64 => v.getLsbD i) h
    simp [ha, hi, ← BitVec.getLsbD_eq_getElem] at hbit
    exact hb hbit
  · intro h
    apply BitVec.eq_of_getLsbD_eq
    intro i hi
    by_cases ha : a.getLsbD i = true
    · simp [ha, h i ha]
    · simp [ha]

/-- `a & b == 0`. -/
theorem disjoint_iff {a b : BitVec 64} :
    a &&& b = 0 ↔ ∀ i, a.getLsbD i = true → b.getLsbD i = false := by
  constructor
  · intro h i ha
    have hbit := congrArg (fun v : BitVec 64 => v.getLsbD i) h
    simpa [ha] using hbit
  · intro h
    apply BitVec.eq_of_getLsbD_eq
    intro i hi
    by_cases ha : a.getLsbD i = true
    · simp [ha, h i ha]
    · simp [ha]

end Batpak.Util
