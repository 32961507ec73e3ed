/-
Module: Batpak.Util.Msgpack
Purpose: MessagePack values and the reader that takes one value off the front of a byte
  string, with a bound on how deep containers nest.
Trusted boundary: none
Main exports: Msgpack, Msgpack.read
-/
import Mathlib

namespace Batpak.Util

variable {α : Type} {input rest : List UInt8}

/-- One MessagePack value. Floats are kept as their bits, strings as their bytes. -/
inductive Msgpack where
  | nil
  | bool (b : Bool)
  | int (n : Int)
  | float32 (bits : Nat)
  | float64 (bits : Nat)
  | str (bytes : List UInt8)
  | bin (bytes : List UInt8)
  | ext (tag : UInt8) (bytes : List UInt8)
  | array (items : List Msgpack)
  | map (entries : List (Msgpack × Msgpack))
  deriving Inhabited

namespace Msgpack

/-- A reader takes something off the front of the input and returns the rest. -/
abbrev Reader (α : Type) := List UInt8 → Option (α × List UInt8)

/-! ### Readers for the pieces -/

/-- Exactly `n` bytes. -/
def takeBytes (n : Nat) : Reader (List UInt8) := fun input =>
  if n ≤ input.length then some (input.take n, input.drop n) else none

/-- An unsigned number of `n` bytes, most significant first. -/
def readUInt (n : Nat) : Reader Nat := fun input => do
  let (bytes, rest) ← takeBytes n input
  return (bytes.foldl (fun acc b => acc * 256 + b.toNat) 0, rest)

/-- A two's complement number of `n` bytes. -/
def readInt (n : Nat) : Reader Int := fun input => do
  let (u, rest) ← readUInt n input
  return (if u < 2 ^ (8 * n - 1) then (u : Int) else (u : Int) - 2 ^ (8 * n), rest)

/-- `n` things in a row. -/
def readMany {α : Type} (one : Reader α) : Nat → Reader (List α)
  | 0, input => some ([], input)
  | n + 1, input => do
      let (x, rest) ← one input
      let (xs, rest) ← readMany one n rest
      return (x :: xs, rest)

/-- Two things in a row. -/
def readPair {α : Type} (one : Reader α) : Reader (α × α) := fun input => do
  let (k, rest) ← one input
  let (v, rest) ← one rest
  return ((k, v), rest)

/-- Bytes behind a length. -/
def readSized (lengthBytes : Nat) (wrap : List UInt8 → Msgpack) : Reader Msgpack :=
  fun input => do
    let (n, rest) ← readUInt lengthBytes input
    let (bytes, rest) ← takeBytes n rest
    return (wrap bytes, rest)

/-- An extension: its tag, then `n` bytes. -/
def readExt (n : Nat) : Reader Msgpack := fun input =>
  match input with
  | [] => none
  | tag :: rest => do
      let (bytes, rest) ← takeBytes n rest
      return (.ext tag bytes, rest)

/-- The values that hold no other value, by the byte that announces them. -/
def readScalar (marker : Nat) : Reader Msgpack := fun rest =>
  if marker < 0x80 then some (.int marker, rest)
  else if marker < 0xc0 then do
    let (bytes, rest) ← takeBytes (marker - 0xa0) rest
    return (.str bytes, rest)
  else if 0xe0 ≤ marker then some (.int ((marker : Int) - 256), rest)
  else
    match marker with
    | 0xc0 => some (.nil, rest)
    | 0xc2 => some (.bool false, rest)
    | 0xc3 => some (.bool true, rest)
    | 0xc4 => readSized 1 .bin rest
    | 0xc5 => readSized 2 .bin rest
    | 0xc6 => readSized 4 .bin rest
    | 0xc7 => do let (n, rest) ← readUInt 1 rest; readExt n rest
    | 0xc8 => do let (n, rest) ← readUInt 2 rest; readExt n rest
    | 0xc9 => do let (n, rest) ← readUInt 4 rest; readExt n rest
    | 0xca => do let (bits, rest) ← readUInt 4 rest; return (.float32 bits, rest)
    | 0xcb => do let (bits, rest) ← readUInt 8 rest; return (.float64 bits, rest)
    | 0xcc => do let (n, rest) ← readUInt 1 rest; return (.int n, rest)
    | 0xcd => do let (n, rest) ← readUInt 2 rest; return (.int n, rest)
    | 0xce => do let (n, rest) ← readUInt 4 rest; return (.int n, rest)
    | 0xcf => do let (n, rest) ← readUInt 8 rest; return (.int n, rest)
    | 0xd0 => do let (n, rest) ← readInt 1 rest; return (.int n, rest)
    | 0xd1 => do let (n, rest) ← readInt 2 rest; return (.int n, rest)
    | 0xd2 => do let (n, rest) ← readInt 4 rest; return (.int n, rest)
    | 0xd3 => do let (n, rest) ← readInt 8 rest; return (.int n, rest)
    | 0xd4 => readExt 1 rest
    | 0xd5 => readExt 2 rest
    | 0xd6 => readExt 4 rest
    | 0xd7 => readExt 8 rest
    | 0xd8 => readExt 16 rest
    | 0xd9 => readSized 1 .str rest
    | 0xda => readSized 2 .str rest
    | 0xdb => readSized 4 .str rest
    -- 0xc1 is reserved
    | _ => none

/-- What a marker byte announces, with the item count of a container. -/
inductive Shape where
  | scalar
  | array (count : Nat)
  | map (count : Nat)

/-- Read the count of a container, if the marker announces one. -/
def readShape (marker : Nat) : Reader Shape := fun rest =>
  if 0x80 ≤ marker ∧ marker < 0x90 then some (.map (marker - 0x80), rest)
  else if 0x90 ≤ marker ∧ marker < 0xa0 then some (.array (marker - 0x90), rest)
  else
    match marker with
    | 0xdc => do let (n, rest) ← readUInt 2 rest; return (.array n, rest)
    | 0xdd => do let (n, rest) ← readUInt 4 rest; return (.array n, rest)
    | 0xde => do let (n, rest) ← readUInt 2 rest; return (.map n, rest)
    | 0xdf => do let (n, rest) ← readUInt 4 rest; return (.map n, rest)
    | _ => some (.scalar, rest)

/-! ### One value -/

/-- Read one value. Entering a container uses up one level and fails on the last one. -/
def read : Nat → Reader Msgpack
  | 0, _ => none
  | _ + 1, [] => none
  | levels + 1, marker :: input => do
      let (shape, rest) ← readShape marker.toNat input
      match shape with
      | .scalar => readScalar marker.toNat rest
      | .array count =>
          if levels = 0 then none
          else do
            let (items, rest) ← readMany (read levels) count rest
            return (.array items, rest)
      | .map count =>
          if levels = 0 then none
          else do
            let (entries, rest) ← readMany (readPair (read levels)) count rest
            return (.map entries, rest)

/-! ### How much a reader takes -/

/-- The reader returns a part of its input. -/
def Bounded {α : Type} (r : Reader α) : Prop :=
  ∀ input x rest, r input = some (x, rest) → rest.length ≤ input.length

/-- The reader takes at least one byte. -/
def Consuming {α : Type} (r : Reader α) : Prop :=
  ∀ input x rest, r input = some (x, rest) → rest.length < input.length

theorem bounded_pure (a : α) : Bounded fun rest => some (a, rest) := by
  intro input x rest h
  cases h
  exact Nat.le_refl _

theorem Bounded.map {β : Type} {r : Reader α} (hr : Bounded r) (f : α → β) :
    Bounded fun input => (r input).bind fun p => some (f p.1, p.2) := by
  intro input y rest h
  obtain ⟨⟨a, mid⟩, ha, hy⟩ := Option.bind_eq_some_iff.mp h
  cases hy
  exact hr input a mid ha

theorem takeBytes_bounded (n : Nat) : Bounded (takeBytes n) := by
  intro input x rest h
  unfold takeBytes at h
  split at h
  · cases h
    rw [List.length_drop]
    exact Nat.sub_le ..
  · cases h

theorem readUInt_bounded (n : Nat) : Bounded (readUInt n) :=
  (takeBytes_bounded n).map _

theorem readInt_bounded (n : Nat) : Bounded (readInt n) :=
  (readUInt_bounded n).map fun u =>
    if u < 2 ^ (8 * n - 1) then (u : Int) else (u : Int) - 2 ^ (8 * n)

/-- The reader returns a part of its input and a value that is no array. -/
def Flat (r : Reader Msgpack) : Prop :=
  ∀ input x rest, r input = some (x, rest) →
    rest.length ≤ input.length ∧ ∀ items, x ≠ .array items

theorem flat_pure {a : Msgpack} (ha : ∀ items, a ≠ .array items) :
    Flat fun rest => some (a, rest) := by
  intro input x rest h
  cases h
  exact ⟨Nat.le_refl _, ha⟩

theorem flat_none : Flat fun _ => none := by
  intro input x rest h
  cases h

theorem Bounded.flatBind {r : Reader α} {k : α → Reader Msgpack} (hr : Bounded r)
    (hk : ∀ a, Flat (k a)) : Flat fun input => (r input).bind fun p => k p.1 p.2 := by
  intro input y rest h
  obtain ⟨⟨a, mid⟩, ha, hy⟩ := Option.bind_eq_some_iff.mp h
  obtain ⟨hrest, hflat⟩ := hk a mid y rest hy
  exact ⟨Nat.le_trans hrest (hr input a mid ha), hflat⟩

theorem Bounded.flatMap {r : Reader α} (hr : Bounded r) {f : α → Msgpack}
    (hf : ∀ a items, f a ≠ .array items) :
    Flat fun input => (r input).bind fun p => some (f p.1, p.2) :=
  hr.flatBind fun a => flat_pure (hf a)

theorem readSized_flat (n : Nat) {wrap : List UInt8 → Msgpack}
    (hwrap : ∀ bytes items, wrap bytes ≠ .array items) : Flat (readSized n wrap) :=
  (readUInt_bounded n).flatBind fun count => (takeBytes_bounded count).flatMap hwrap

theorem readExt_flat (n : Nat) : Flat (readExt n) := by
  intro input x rest h
  cases input with
  | nil => cases h
  | cons tag input =>
      have htail : Flat fun input => (takeBytes n input).bind fun p => some (.ext tag p.1, p.2) :=
        (takeBytes_bounded n).flatMap (by simp)
      obtain ⟨hrest, hflat⟩ := htail input x rest h
      exact ⟨Nat.le_succ_of_le hrest, hflat⟩

theorem readUIntValue_flat (n : Nat) {f : Nat → Msgpack} (hf : ∀ a items, f a ≠ .array items) :
    Flat fun rest => (readUInt n rest).bind fun p => some (f p.1, p.2) :=
  (readUInt_bounded n).flatMap hf

theorem readScalar_flat (marker : Nat) : Flat (readScalar marker) := by
  unfold readScalar
  by_cases hfix : marker < 0x80
  · simp only [hfix, if_true]
    exact flat_pure (by simp)
  by_cases hstr : marker < 0xc0
  · simp only [hfix, hstr, if_true, if_false]
    exact (takeBytes_bounded _).flatMap (by simp)
  by_cases hneg : 0xe0 ≤ marker
  · simp only [hfix, hstr, hneg, if_true, if_false]
    exact flat_pure (by simp)
  simp only [hfix, hstr, hneg, if_false]
  split
  case h_1 | h_2 | h_3 => exact flat_pure (by simp)
  case h_4 | h_5 | h_6 => exact readSized_flat _ (by simp)
  case h_7 | h_8 | h_9 => exact (readUInt_bounded _).flatBind readExt_flat
  case h_10 | h_11 => exact (readUInt_bounded _).flatMap (by simp)
  case h_12 | h_13 | h_14 | h_15 =>
    exact readUIntValue_flat _ (f := fun n => .int n) (by simp)
  case h_16 | h_17 | h_18 | h_19 => exact (readInt_bounded _).flatMap (by simp)
  case h_20 | h_21 | h_22 | h_23 | h_24 => exact readExt_flat _
  case h_25 | h_26 | h_27 => exact readSized_flat _ (by simp)
  case h_28 => exact flat_none

theorem readShape_bounded (marker : Nat) : Bounded (readShape marker) := by
  unfold readShape
  by_cases hmap : 0x80 ≤ marker ∧ marker < 0x90
  · simp only [hmap, if_true, and_self]
    exact bounded_pure _
  by_cases harray : 0x90 ≤ marker ∧ marker < 0xa0
  · simp only [hmap, harray, if_true, if_false, and_self]
    exact bounded_pure _
  simp only [hmap, harray, if_false]
  split
  case h_1 | h_2 => exact (readUInt_bounded _).map Shape.array
  case h_3 | h_4 => exact (readUInt_bounded _).map Shape.map
  case h_5 => exact bounded_pure _

/-- Things that take at least one byte each leave that much less behind. -/
theorem readMany_length {one : Reader α} (hone : Consuming one) {n : Nat} {xs : List α}
    (h : readMany one n input = some (xs, rest)) :
    xs.length = n ∧ rest.length + n ≤ input.length := by
  induction n generalizing input xs with
  | zero =>
      cases h
      exact ⟨rfl, Nat.le_refl _⟩
  | succ n ih =>
      obtain ⟨⟨x, mid⟩, hx, h⟩ := Option.bind_eq_some_iff.mp h
      obtain ⟨⟨ys, final⟩, hys, h⟩ := Option.bind_eq_some_iff.mp h
      cases h
      obtain ⟨hlength, hrest⟩ := ih hys
      have hfirst := hone input x mid hx
      constructor
      · simp only [List.length_cons, hlength]
      · omega

theorem readPair_consuming {one : Reader α} (hone : Consuming one) :
    Consuming (readPair one) := by
  intro input x rest h
  obtain ⟨⟨k, mid⟩, hk, h⟩ := Option.bind_eq_some_iff.mp h
  obtain ⟨⟨v, final⟩, hv, h⟩ := Option.bind_eq_some_iff.mp h
  cases h
  exact Nat.lt_trans (hone mid v rest hv) (hone input k mid hk)

/-- What a successful read took: the marker, then a scalar, or the items of a container. -/
theorem read_cases {levels : Nat} {value : Msgpack}
    (h : read (levels + 1) input = some (value, rest)) :
    ∃ marker tail mid, input = marker :: tail ∧ mid.length ≤ tail.length ∧
      (readScalar marker.toNat mid = some (value, rest) ∨
        (∃ count items, readMany (read levels) count mid = some (items, rest) ∧
          value = .array items) ∨
        ∃ count entries, readMany (readPair (read levels)) count mid = some (entries, rest) ∧
          value = .map entries) := by
  cases input with
  | nil => cases h
  | cons marker tail =>
      obtain ⟨⟨shape, mid⟩, hshape, h⟩ := Option.bind_eq_some_iff.mp h
      refine ⟨marker, tail, mid, rfl, readShape_bounded _ _ _ _ hshape, ?_⟩
      cases shape with
      | scalar => exact Or.inl h
      | array count =>
          by_cases hlevels : levels = 0
          · simp [hlevels] at h
          · simp only [hlevels, if_false] at h
            obtain ⟨⟨items, final⟩, hitems, h⟩ := Option.bind_eq_some_iff.mp h
            cases h
            exact Or.inr (Or.inl ⟨count, items, hitems, rfl⟩)
      | map count =>
          by_cases hlevels : levels = 0
          · simp [hlevels] at h
          · simp only [hlevels, if_false] at h
            obtain ⟨⟨entries, final⟩, hentries, h⟩ := Option.bind_eq_some_iff.mp h
            cases h
            exact Or.inr (Or.inr ⟨count, entries, hentries, rfl⟩)

theorem read_consuming (levels : Nat) : Consuming (read levels) := by
  induction levels with
  | zero =>
      intro input x rest h
      cases h
  | succ levels ih =>
      intro input value rest h
      obtain ⟨marker, tail, mid, rfl, hmid, hvalue⟩ := read_cases h
      have hrest : rest.length ≤ mid.length := by
        rcases hvalue with hscalar | ⟨count, items, hitems, -⟩ | ⟨count, entries, hentries, -⟩
        · exact (readScalar_flat _ _ _ _ hscalar).1
        · have hlength := (readMany_length ih hitems).2
          omega
        · have hlength := (readMany_length (readPair_consuming ih) hentries).2
          omega
      exact Nat.lt_succ_of_le (Nat.le_trans hrest hmid)

/-- An array takes a byte for its marker and at least one for each item. -/
theorem read_array_length {levels : Nat} {items : List Msgpack}
    (h : read levels input = some (.array items, rest)) : items.length < input.length := by
  cases levels with
  | zero => cases h
  | succ levels =>
      obtain ⟨marker, tail, mid, rfl, hmid, hvalue⟩ := read_cases h
      rcases hvalue with hscalar | ⟨count, found, hfound, heq⟩ | ⟨count, entries, -, heq⟩
      · exact absurd rfl ((readScalar_flat _ _ _ _ hscalar).2 items)
      · cases heq
        obtain ⟨hcount, hlength⟩ := readMany_length (read_consuming levels) hfound
        simp only [List.length_cons]
        omega
      · cases heq

end Msgpack

end Batpak.Util
