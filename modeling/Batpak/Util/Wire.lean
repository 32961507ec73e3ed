/-
Module: Batpak.Util.Wire
Purpose: Texts as bytes on a line: hexadecimal and decimal tokens with their readers, UTF-8
  validity, integers of a fixed width, and lines of tokens separated by blanks.
Trusted boundary: none
Main exports: encodeHex, decodePairs
-/
import Mathlib.Data.Nat.Digits.Defs
import Mathlib.Tactic.Ring

namespace Batpak.Util

abbrev Bytes := List UInt8

/-- The bytes of an ASCII text. -/
def ascii (text : String) : Bytes :=
  text.toList.map fun c => UInt8.ofNat c.toNat

/-! ### Hexadecimal -/

def hexDigit (n : UInt8) : UInt8 :=
  if n < 10 then 48 + n else 87 + n

/-- Both cases are read. -/
def hexValue (byte : UInt8) : Option UInt8 :=
  if 48 ≤ byte ∧ byte ≤ 57 then some (byte - 48)
  else if 97 ≤ byte ∧ byte ≤ 102 then some (byte - 97 + 10)
  else if 65 ≤ byte ∧ byte ≤ 70 then some (byte - 65 + 10)
  else none

def encodeHex (bytes : Bytes) : Bytes :=
  bytes.flatMap fun (byte : UInt8) => [hexDigit (byte >>> 4), hexDigit (byte &&& 15)]

/-- Pairs of digits; an odd one at the end is not looked at. -/
def decodePairs : Bytes → Option Bytes
  | high :: low :: rest => do
      let h ← hexValue high
      let l ← hexValue low
      let bytes ← decodePairs rest
      return (h <<< 4 ||| l) :: bytes
  | _ => some []

theorem forall_uint8 {P : UInt8 → Prop} (h : ∀ n : Fin 256, P (UInt8.ofFin n)) (b : UInt8) :
    P b :=
  h b.toFin

theorem hexValue_hexDigit {n : UInt8} (h : n < 16) : hexValue (hexDigit n) = some n := by
  have hall : ∀ n : Fin 16, hexValue (hexDigit (UInt8.ofNat n)) = some (UInt8.ofNat n) := by
    decide
  simpa using hall ⟨n.toNat, UInt8.lt_iff_toNat_lt.mp h⟩

theorem hexDigit_graphic {n : UInt8} (h : n < 16) : 48 ≤ hexDigit n ∧ hexDigit n ≤ 102 := by
  have hall : ∀ n : Fin 16, 48 ≤ hexDigit (UInt8.ofNat n) ∧ hexDigit (UInt8.ofNat n) ≤ 102 := by
    decide
  simpa using hall ⟨n.toNat, UInt8.lt_iff_toNat_lt.mp h⟩

theorem high_lt (b : UInt8) : b >>> 4 < 16 := by
  have hb := b.toNat_lt
  rw [UInt8.lt_iff_toNat_lt, UInt8.toNat_shiftRight, Nat.shiftRight_eq_div_pow]
  change b.toNat / 16 < 16
  omega

theorem low_lt (b : UInt8) : b &&& 15 < 16 := by
  rw [UInt8.lt_iff_toNat_lt, UInt8.toNat_and]
  exact Nat.lt_succ_of_le Nat.and_le_right

theorem nibbles (b : UInt8) : ((b >>> 4) <<< 4 ||| (b &&& 15)) = b := by
  revert b
  exact forall_uint8 (by decide +kernel)

@[simp] theorem length_encodeHex (bytes : Bytes) : (encodeHex bytes).length = 2 * bytes.length := by
  induction bytes with
  | nil => rfl
  | cons b rest ih =>
      have hcons : encodeHex (b :: rest) =
          hexDigit (b >>> 4) :: hexDigit (b &&& 15) :: encodeHex rest := rfl
      rw [hcons, List.length_cons, List.length_cons, ih, List.length_cons]
      omega

theorem decodePairs_encodeHex (bytes : Bytes) : decodePairs (encodeHex bytes) = some bytes := by
  induction bytes with
  | nil => rfl
  | cons b rest ih =>
      change decodePairs (hexDigit (b >>> 4) :: hexDigit (b &&& 15) :: encodeHex rest) = _
      rw [decodePairs, hexValue_hexDigit (high_lt b), hexValue_hexDigit (low_lt b), ih]
      change some (_ :: rest) = _
      rw [nibbles]

/-- No hexadecimal digit is a blank, a line ending or a dash. -/
theorem encodeHex_graphic {bytes : Bytes} {b : UInt8} (h : b ∈ encodeHex bytes) :
    48 ≤ b ∧ b ≤ 102 := by
  obtain ⟨byte, -, hb⟩ := List.mem_flatMap.mp h
  rcases List.mem_cons.mp hb with rfl | hb
  · exact hexDigit_graphic (high_lt byte)
  · rw [List.mem_singleton.mp hb]
    exact hexDigit_graphic (low_lt byte)

/-! ### Decimal -/

def toDecimal (n : Nat) : Bytes :=
  if n = 0 then [48] else (Nat.digits 10 n).reverse.map fun d => UInt8.ofNat (48 + d)

def parseDigits : Nat → Bytes → Option Nat
  | value, [] => some value
  | value, byte :: rest =>
      if 48 ≤ byte ∧ byte ≤ 57 then parseDigits (value * 10 + (byte.toNat - 48)) rest else none

/-- Decimal digits after an optional plus sign, of a value below the bound. -/
def parseUnsigned (bound : Nat) (bytes : Bytes) : Option Nat :=
  let digits := match bytes with
    | 43 :: rest => rest
    | _ => bytes
  if digits = [] then none else (parseDigits 0 digits).filter (· < bound)

theorem decimalByte {d : Nat} (h : d < 10) :
    48 ≤ UInt8.ofNat (48 + d) ∧ UInt8.ofNat (48 + d) ≤ 57 ∧
      (UInt8.ofNat (48 + d)).toNat - 48 = d := by
  have hall : ∀ d : Fin 10, 48 ≤ UInt8.ofNat (48 + d.val) ∧ UInt8.ofNat (48 + d.val) ≤ 57 ∧
      (UInt8.ofNat (48 + d.val)).toNat - 48 = d.val := by
    decide
  exact hall ⟨d, h⟩

theorem parseDigits_map {digits : List Nat} (h : ∀ d ∈ digits, d < 10) (value : Nat) :
    parseDigits value (digits.reverse.map fun d => UInt8.ofNat (48 + d)) =
      some (value * 10 ^ digits.length + Nat.ofDigits 10 digits) := by
  induction digits generalizing value with
  | nil => simp [parseDigits, Nat.ofDigits]
  | cons d rest ih =>
      have happend : ∀ (value : Nat) (front : Bytes) (b : UInt8) (v : Nat),
          parseDigits value front = some v → 48 ≤ b → b ≤ 57 →
          parseDigits value (front ++ [b]) = some (v * 10 + (b.toNat - 48)) := by
        intro value front b v hfront hlow hhigh
        induction front generalizing value with
        | nil =>
            cases hfront
            simp [parseDigits, hlow, hhigh]
        | cons x xs ihfront =>
            rw [List.cons_append, parseDigits]
            rw [parseDigits] at hfront
            split_ifs at hfront ⊢ with hx
            exact ihfront _ hfront
      obtain ⟨hlow, hhigh, hvalue⟩ := decimalByte (h d List.mem_cons_self)
      have hrest := ih (fun x hx => h x (List.mem_cons_of_mem _ hx)) value
      rw [List.reverse_cons, List.map_append, List.map_singleton,
        happend value _ _ _ hrest hlow hhigh, hvalue, Nat.ofDigits_cons, List.length_cons]
      congr 1
      rw [Nat.pow_succ, Nat.add_mul, Nat.mul_assoc]
      omega

theorem toDecimal_digit {n : Nat} {b : UInt8} (h : b ∈ toDecimal n) : 48 ≤ b ∧ b ≤ 57 := by
  unfold toDecimal at h
  split_ifs at h with hzero
  · rw [List.mem_singleton.mp h]
    decide
  · obtain ⟨d, hd, rfl⟩ := List.mem_map.mp h
    have hdigit := Nat.digits_lt_base (by decide) (List.mem_reverse.mp hd)
    exact ⟨(decimalByte hdigit).1, (decimalByte hdigit).2.1⟩

theorem toDecimal_ne_nil (n : Nat) : toDecimal n ≠ [] := by
  unfold toDecimal
  split_ifs with hzero
  · simp
  · simpa using Nat.digits_ne_nil_iff_ne_zero.mpr hzero

theorem parseDigits_toDecimal (n : Nat) : parseDigits 0 (toDecimal n) = some n := by
  unfold toDecimal
  split_ifs with hzero
  · rw [hzero]
    decide
  · rw [parseDigits_map fun d hd => Nat.digits_lt_base (by decide) hd, Nat.ofDigits_digits]
    simp

theorem parseUnsigned_toDecimal {n bound : Nat} (h : n < bound) :
    parseUnsigned bound (toDecimal n) = some n := by
  have hdigits : (match toDecimal n with
      | 43 :: rest => rest
      | _ => toDecimal n) = toDecimal n := by
    split
    next rest heq =>
        have hplus := @toDecimal_digit n 43 (by rw [heq]; exact List.mem_cons_self)
        exact absurd hplus.1 (by decide)
    next => rfl
  unfold parseUnsigned
  simp only [hdigits, toDecimal_ne_nil, if_false, parseDigits_toDecimal]
  simp [h]

/-! ### UTF-8 -/

def isContinuation (byte : UInt8) : Bool :=
  128 ≤ byte && byte ≤ 191

/-- The range of the second byte after a given first one. -/
def secondInRange (first second : UInt8) : Bool :=
  let low : UInt8 := if first = 0xe0 then 0xa0 else if first = 0xf0 then 0x90 else 0x80
  let high : UInt8 := if first = 0xed then 0x9f else if first = 0xf4 then 0x8f else 0xbf
  low ≤ second && second ≤ high

/-- How many bytes after the first one belong to its character, and whether the character is
complete; otherwise they are the longest start of one. -/
def utf8Next (first : UInt8) (rest : Bytes) : Nat × Bool :=
  let cont (k : Nat) := (rest[k]?.map isContinuation).getD false
  let second := (rest[0]?.map (secondInRange first)).getD false
  if first < 0x80 then (0, true)
  else if 0xc2 ≤ first ∧ first ≤ 0xdf then if cont 0 then (1, true) else (0, false)
  else if 0xe0 ≤ first ∧ first ≤ 0xef then
    if !second then (0, false) else if cont 1 then (2, true) else (1, false)
  else if 0xf0 ≤ first ∧ first ≤ 0xf4 then
    if !second then (0, false) else if !cont 1 then (1, false)
    else if cont 2 then (3, true) else (2, false)
  else (0, false)

/-- Validity of what follows a number of bytes still to be passed over. -/
def validUtf8From : Nat → Bytes → Bool
  | _, [] => true
  | skip + 1, _ :: rest => validUtf8From skip rest
  | 0, first :: rest =>
      match utf8Next first rest with
      | (_, false) => false
      | (n, true) => validUtf8From n rest

def validUtf8 (bytes : Bytes) : Bool :=
  validUtf8From 0 bytes

/-- Every part that is no character is replaced by U+FFFD. -/
def utf8LossyFrom : Nat → Bool → Bytes → Bytes
  | _, _, [] => []
  | skip + 1, copied, byte :: rest =>
      if copied then byte :: utf8LossyFrom skip copied rest else utf8LossyFrom skip copied rest
  | 0, _, first :: rest =>
      match utf8Next first rest with
      | (n, true) => first :: utf8LossyFrom n true rest
      | (n, false) => [0xef, 0xbf, 0xbd] ++ utf8LossyFrom n false rest

def utf8Lossy (bytes : Bytes) : Bytes :=
  utf8LossyFrom 0 true bytes

theorem validUtf8_of_ascii {bytes : Bytes} (h : ∀ b ∈ bytes, b < 0x80) :
    validUtf8 bytes = true := by
  unfold validUtf8
  induction bytes with
  | nil => rfl
  | cons first rest ih =>
      have hnext : utf8Next first rest = (0, true) := by
        unfold utf8Next
        exact if_pos (h first List.mem_cons_self)
      rw [validUtf8From, hnext]
      exact ih fun b hb => h b (List.mem_cons_of_mem _ hb)

/-! ### Integers of a fixed width -/

/-- Most significant byte first. -/
def toBeBytes : Nat → Nat → Bytes
  | 0, _ => []
  | width + 1, n => UInt8.ofNat (n / 256 ^ width) :: toBeBytes width n

def ofBeBytes (bytes : Bytes) : Nat :=
  bytes.foldl (fun value b => 256 * value + b.toNat) 0

@[simp] theorem length_toBeBytes (width n : Nat) : (toBeBytes width n).length = width := by
  induction width with
  | zero => rfl
  | succ width ih => rw [toBeBytes, List.length_cons, ih]

theorem foldl_toBeBytes (width n value : Nat) :
    (toBeBytes width n).foldl (fun value b => 256 * value + b.toNat) value =
      256 ^ width * value + n % 256 ^ width := by
  induction width generalizing value with
  | zero => simp [toBeBytes, Nat.mod_one]
  | succ width ih =>
      have hmod : n % (256 ^ width * 256) =
          n % 256 ^ width + 256 ^ width * (n / 256 ^ width % 256) := Nat.mod_mul
      have hbyte : (UInt8.ofNat (n / 256 ^ width)).toNat = n / 256 ^ width % 256 :=
        UInt8.toNat_ofNat'
      rw [toBeBytes, List.foldl_cons, ih, hbyte, Nat.pow_succ, hmod]
      ring

theorem ofBeBytes_toBeBytes {width n : Nat} (h : n < 256 ^ width) :
    ofBeBytes (toBeBytes width n) = n := by
  rw [ofBeBytes, foldl_toBeBytes, Nat.mul_zero, Nat.zero_add, Nat.mod_eq_of_lt h]

/-! ### Lines of tokens -/

/-- Tokens separated by single blanks. -/
def joinTokens (tokens : List Bytes) : Bytes :=
  [(32 : UInt8)].intercalate tokens

theorem splitOn_joinTokens {tokens : List Bytes} (h : ∀ token ∈ tokens, 32 ∉ token)
    (hne : tokens ≠ []) : (joinTokens tokens).splitOn 32 = tokens :=
  List.splitOn_intercalate 32 h hne

/-- Every token takes one byte more than its own, the last one but for the end of the line. -/
theorem length_joinTokens {tokens : List Bytes} (hne : tokens ≠ []) :
    (joinTokens tokens).length + 1 = (tokens.map fun token => token.length + 1).sum := by
  induction tokens with
  | nil => exact absurd rfl hne
  | cons token rest ih =>
      cases rest with
      | nil => simp [joinTokens]
      | cons next rest =>
          rw [List.map_cons, List.sum_cons, ← ih (List.cons_ne_nil _ _)]
          rw [joinTokens, List.intercalate_cons_cons, List.length_append, List.length_append,
            ← joinTokens]
          simp only [List.length_singleton]
          omega

theorem joinTokens_ne_nil {first : Bytes} {rest : List Bytes} (h : first ≠ []) :
    joinTokens (first :: rest) ≠ [] := by
  intro hnil
  apply h
  cases rest with
  | nil => simpa [joinTokens] using hnil
  | cons next rest =>
      rw [joinTokens, List.intercalate_cons_cons] at hnil
      simp at hnil

theorem mem_joinTokens {tokens : List Bytes} {b : UInt8} (h : b ∈ joinTokens tokens) :
    b = 32 ∨ ∃ token ∈ tokens, b ∈ token := by
  induction tokens with
  | nil => cases h
  | cons token rest ih =>
      cases rest with
      | nil =>
          right
          exact ⟨token, List.mem_singleton.mpr rfl, by simpa [joinTokens] using h⟩
      | cons next rest =>
          rw [joinTokens, List.intercalate_cons_cons, List.mem_append, List.mem_append] at h
          rcases h with (h | h) | h
          · exact .inr ⟨token, List.mem_cons_self, h⟩
          · exact .inl (List.mem_singleton.mp h)
          · rcases ih h with hblank | ⟨other, hother, hb⟩
            · exact .inl hblank
            · exact .inr ⟨other, List.mem_cons_of_mem _ hother, hb⟩

end Batpak.Util
