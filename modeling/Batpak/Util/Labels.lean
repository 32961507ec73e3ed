/-
Module: Batpak.Util.Labels
Purpose: When a text joined from parts determines them: the last separator of a list, a
  marker between two free parts, and the digits of a number in a base up to sixteen.
Trusted boundary: none
Main exports: eq_of_lastSeparator, split_of_marker
-/
import Mathlib.Data.List.Basic

namespace Batpak.Util

section Separators

variable {α : Type} {sep : α} {front front' tail tail' : List α}

/-- What stands after the last separator is determined by the whole. -/
theorem eq_of_lastSeparator (hsep : sep ∉ tail) (hsep' : sep ∉ tail')
    (h : front ++ sep :: tail = front' ++ sep :: tail') : front = front' ∧ tail = tail' := by
  rcases List.append_eq_append_iff.mp h with ⟨rest, hfront, htail⟩ | ⟨rest, hfront, htail⟩
  · cases rest with
    | nil => simp_all
    | cons a rest =>
        -- the separator of `front'` would stand in `tail`
        have hmem : sep ∈ tail := by
          rw [(List.cons_eq_cons.mp htail).2]
          simp
        exact absurd hmem hsep
  · cases rest with
    | nil => simp_all
    | cons a rest =>
        have hmem : sep ∈ tail' := by
          rw [(List.cons_eq_cons.mp htail).2]
          simp
        exact absurd hmem hsep'

/-- Two parts joined by a marker that has its first element only once: the split is the same,
or both wholes have that element in either part. -/
theorem split_of_marker {marker : List α} (hsep : sep ∉ marker)
    (h : front ++ sep :: (marker ++ tail) = front' ++ sep :: (marker ++ tail')) :
    (front = front' ∧ tail = tail') ∨ (sep ∈ front' ∧ sep ∈ tail) ∨ (sep ∈ front ∧ sep ∈ tail') := by
  rcases List.append_eq_append_iff.mp h with ⟨rest, hfront, htail⟩ | ⟨rest, hfront, htail⟩
  · cases rest with
    | nil => simp_all
    | cons a rest =>
        obtain ⟨ha, htail⟩ := List.cons_eq_cons.mp htail
        have hmem : sep ∈ marker ++ tail := by
          rw [htail]
          simp
        exact .inr (.inl ⟨by simp [hfront, ha], by simpa [hsep] using hmem⟩)
  · cases rest with
    | nil => simp_all
    | cons a rest =>
        obtain ⟨ha, htail⟩ := List.cons_eq_cons.mp htail
        have hmem : sep ∈ marker ++ tail' := by
          rw [htail]
          simp
        exact .inr (.inr ⟨by simp [hfront, ha], by simpa [hsep] using hmem⟩)

end Separators

/-! ### Digits -/

theorem digitChar_injective {m n : Nat} (hm : m < 16) (hn : n < 16)
    (h : m.digitChar = n.digitChar) : m = n := by
  have hall : ∀ m n : Fin 16, m.val.digitChar = n.val.digitChar → m = n := by
    decide
  exact congrArg Fin.val (hall ⟨m, hm⟩ ⟨n, hn⟩ h)

section Digits

variable {b : Nat} (hb : 1 < b) (hb' : b ≤ 16)

include hb hb'

theorem toDigits_injective {m n : Nat} (h : Nat.toDigits b m = Nat.toDigits b n) : m = n := by
  induction m using Nat.strongRecOn generalizing n with
  | ind m ih =>
      have hlast : ∀ k, k % b < 16 := fun k => Nat.lt_of_lt_of_le (Nat.mod_lt k (by omega)) hb'
      rw [Nat.toDigits_eq_if hb, Nat.toDigits_eq_if (n := n) hb] at h
      split at h <;> split at h
      case isTrue.isTrue hm hn =>
        exact digitChar_injective (by omega) (by omega) (List.singleton_inj.mp h)
      case isTrue.isFalse hm hn =>
        have hlength := congrArg List.length h
        have hpos := Nat.length_toDigits_pos (b := b) (n := n / b)
        simp only [List.length_singleton, List.length_append] at hlength
        omega
      case isFalse.isTrue hm hn =>
        have hlength := congrArg List.length h
        have hpos := Nat.length_toDigits_pos (b := b) (n := m / b)
        simp only [List.length_singleton, List.length_append] at hlength
        omega
      case isFalse.isFalse hm hn =>
        obtain ⟨hfront, hdigit⟩ := List.append_inj' h rfl
        have hquot := ih (m / b) (Nat.div_lt_self (by omega) hb) hfront
        have hrem := digitChar_injective (hlast m) (hlast n) (List.singleton_inj.mp hdigit)
        rw [← Nat.div_add_mod m b, ← Nat.div_add_mod n b, hquot, hrem]

theorem mem_toDigits {n : Nat} {c : Char} (h : c ∈ Nat.toDigits b n) :
    ∃ d < 16, c = Nat.digitChar d := by
  induction n using Nat.strongRecOn with
  | ind n ih =>
      rw [Nat.toDigits_eq_if hb] at h
      split at h
      case isTrue hn =>
        exact ⟨n, by omega, List.mem_singleton.mp h⟩
      case isFalse hn =>
        rcases List.mem_append.mp h with h | h
        · exact ih (n / b) (Nat.div_lt_self (by omega) hb) h
        · exact ⟨n % b, Nat.lt_of_lt_of_le (Nat.mod_lt n (by omega)) hb', List.mem_singleton.mp h⟩

/-- A character that is no hexadecimal digit stands in no number. -/
theorem notMem_toDigits {n : Nat} {c : Char} (hc : ∀ d : Fin 16, c ≠ Nat.digitChar d) :
    c ∉ Nat.toDigits b n := by
  intro h
  obtain ⟨d, hd, hcd⟩ := mem_toDigits hb hb' h
  exact hc ⟨d, hd⟩ hcd

end Digits

end Batpak.Util
