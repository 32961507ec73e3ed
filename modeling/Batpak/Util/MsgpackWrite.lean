/-
Module: Batpak.Util.MsgpackWrite
Purpose: Writing MessagePack values in their shortest form, which values can be written, and
  that the reader takes what was written off the front of any input.
Trusted boundary: none
Main exports: Msgpack.write, Msgpack.fits
-/
import Batpak.Util.Msgpack
import Batpak.Util.Packed

namespace Batpak.Util

namespace Msgpack

/-! ### Writing -/

def marker (n : Nat) (rest : List UInt8) : List UInt8 :=
  UInt8.ofNat n :: rest

def writeInt (n : Int) : List UInt8 :=
  if 0 ≤ n then
    if n < 128 then marker n.toNat []
    else if n < 2 ^ 8 then marker 0xcc (beBytes 1 n.toNat)
    else if n < 2 ^ 16 then marker 0xcd (beBytes 2 n.toNat)
    else if n < 2 ^ 32 then marker 0xce (beBytes 4 n.toNat)
    else marker 0xcf (beBytes 8 n.toNat)
  else if -32 ≤ n then marker (n + 256).toNat []
  else if -2 ^ 7 ≤ n then marker 0xd0 (beBytes 1 (n + 2 ^ 8).toNat)
  else if -2 ^ 15 ≤ n then marker 0xd1 (beBytes 2 (n + 2 ^ 16).toNat)
  else if -2 ^ 31 ≤ n then marker 0xd2 (beBytes 4 (n + 2 ^ 32).toNat)
  else marker 0xd3 (beBytes 8 (n + 2 ^ 64).toNat)

def writeStr (bytes : List UInt8) : List UInt8 :=
  (if bytes.length < 32 then marker (0xa0 + bytes.length) []
    else if bytes.length < 2 ^ 8 then marker 0xd9 (beBytes 1 bytes.length)
    else if bytes.length < 2 ^ 16 then marker 0xda (beBytes 2 bytes.length)
    else marker 0xdb (beBytes 4 bytes.length)) ++ bytes

def writeBin (bytes : List UInt8) : List UInt8 :=
  (if bytes.length < 2 ^ 8 then marker 0xc4 (beBytes 1 bytes.length)
    else if bytes.length < 2 ^ 16 then marker 0xc5 (beBytes 2 bytes.length)
    else marker 0xc6 (beBytes 4 bytes.length)) ++ bytes

def writeExt (tag : UInt8) (bytes : List UInt8) : List UInt8 :=
  (if bytes.length = 1 then marker 0xd4 []
    else if bytes.length = 2 then marker 0xd5 []
    else if bytes.length = 4 then marker 0xd6 []
    else if bytes.length = 8 then marker 0xd7 []
    else if bytes.length = 16 then marker 0xd8 []
    else if bytes.length < 2 ^ 8 then marker 0xc7 (beBytes 1 bytes.length)
    else if bytes.length < 2 ^ 16 then marker 0xc8 (beBytes 2 bytes.length)
    else marker 0xc9 (beBytes 4 bytes.length)) ++ tag :: bytes

def writeArrayLen (count : Nat) : List UInt8 :=
  if count < 16 then marker (0x90 + count) []
  else if count < 2 ^ 16 then marker 0xdc (beBytes 2 count)
  else marker 0xdd (beBytes 4 count)

def writeMapLen (count : Nat) : List UInt8 :=
  if count < 16 then marker (0x80 + count) []
  else if count < 2 ^ 16 then marker 0xde (beBytes 2 count)
  else marker 0xdf (beBytes 4 count)

mutual

def write : Msgpack → List UInt8
  | .nil => marker 0xc0 []
  | .bool b => marker (if b then 0xc3 else 0xc2) []
  | .int n => writeInt n
  | .float32 bits => marker 0xca (beBytes 4 bits)
  | .float64 bits => marker 0xcb (beBytes 8 bits)
  | .str bytes => writeStr bytes
  | .bin bytes => writeBin bytes
  | .ext tag bytes => writeExt tag bytes
  | .array items => writeArrayLen items.length ++ writeItems items
  | .map entries => writeMapLen entries.length ++ writeEntries entries

def writeItems : List Msgpack → List UInt8
  | [] => []
  | item :: rest => write item ++ writeItems rest

def writeEntries : List (Msgpack × Msgpack) → List UInt8
  | [] => []
  | (k, v) :: rest => write k ++ (write v ++ writeEntries rest)

end

/-! ### What can be written -/

mutual

/-- Numbers and lengths within the widths of the format, containers within the levels. -/
def fits : Nat → Msgpack → Bool
  | 0, _ => false
  | _ + 1, .nil => true
  | _ + 1, .bool _ => true
  | _ + 1, .int n => -2 ^ 63 ≤ n && n < 2 ^ 64
  | _ + 1, .float32 bits => bits < 2 ^ 32
  | _ + 1, .float64 bits => bits < 2 ^ 64
  | _ + 1, .str bytes => bytes.length < 2 ^ 32
  | _ + 1, .bin bytes => bytes.length < 2 ^ 32
  | _ + 1, .ext _ bytes => bytes.length < 2 ^ 32
  | levels + 1, .array items => levels ≠ 0 && items.length < 2 ^ 32 && fitsItems levels items
  | levels + 1, .map entries => levels ≠ 0 && entries.length < 2 ^ 32 && fitsEntries levels entries

def fitsItems : Nat → List Msgpack → Bool
  | _, [] => true
  | levels, item :: rest => fits levels item && fitsItems levels rest

def fitsEntries : Nat → List (Msgpack × Msgpack) → Bool
  | _, [] => true
  | levels, (k, v) :: rest => fits levels k && fits levels v && fitsEntries levels rest

end

/-! ### Reading back -/

theorem takeBytes_append {bytes rest : List UInt8} {n : Nat} (h : bytes.length = n) :
    takeBytes n (bytes ++ rest) = some (bytes, rest) := by
  subst h
  simp [takeBytes]

theorem readUInt_beBytes {n v : Nat} (h : v < 256 ^ n) (rest : List UInt8) :
    readUInt n (beBytes n v ++ rest) = some (v, rest) := by
  have hvalue := beValue_beBytes h
  rw [beValue] at hvalue
  simp [readUInt, takeBytes_append (length_beBytes n v), hvalue]

theorem readInt_beBytes {n : Nat} {v : Int} (hn : 0 < n) (hlow : -2 ^ (8 * n - 1) ≤ v) (hneg : v < 0)
    (rest : List UInt8) :
    readInt n (beBytes n (v + 2 ^ (8 * n)).toNat ++ rest) = some (v, rest) := by
  have hhalf : (2 : Int) ^ (8 * n) = 2 ^ (8 * n - 1) * 2 := by
    rw [← Int.pow_succ]
    congr 1
    omega
  have hwidth : (256 : Nat) ^ n = 2 ^ (8 * n) := by
    rw [show (256 : Nat) = 2 ^ 8 from rfl, ← Nat.pow_mul]
  have hcast : ((2 ^ (8 * n) : Nat) : Int) = 2 ^ (8 * n) := by norm_cast
  have hcastHalf : ((2 ^ (8 * n - 1) : Nat) : Int) = 2 ^ (8 * n - 1) := by norm_cast
  have hlt : (v + 2 ^ (8 * n)).toNat < 256 ^ n := by
    rw [hwidth]
    omega
  have hupper : ¬ (v + 2 ^ (8 * n)).toNat < 2 ^ (8 * n - 1) := by omega
  simp only [readInt, readUInt_beBytes hlt, hupper, if_false, Option.bind_eq_bind,
    Option.bind_some, pure]
  congr 2
  omega

/-! ### Reading each piece -/

theorem read_scalar {levels : Nat} {n : Nat} {tail rest : List UInt8} {v : Msgpack} (hn : n < 256)
    (hshape : readShape n tail = some (.scalar, tail)) (h : readScalar n tail = some (v, rest)) :
    read (levels + 1) (marker n tail) = some (v, rest) := by
  have hmarker : (UInt8.ofNat n).toNat = n := by
    rw [UInt8.toNat_ofNat']
    omega
  simp only [marker, read, hmarker, hshape, Option.bind_eq_bind, Option.bind_some]
  exact h

theorem marker_append (n : Nat) (first rest : List UInt8) :
    marker n first ++ rest = marker n (first ++ rest) :=
  rfl

theorem readShape_scalar {n : Nat} (h : n < 0x80 ∨ (0xa0 ≤ n ∧ n < 0xdc) ∨ 0xdf < n)
    (tail : List UInt8) : readShape n tail = some (.scalar, tail) := by
  have hmap : ¬ (0x80 ≤ n ∧ n < 0x90) := by omega
  have harray : ¬ (0x90 ≤ n ∧ n < 0xa0) := by omega
  simp only [readShape, hmap, harray, if_false]
  split
  all_goals first | rfl | omega

theorem read_writeInt {levels : Nat} {n : Int} (hlow : -2 ^ 63 ≤ n) (hhigh : n < 2 ^ 64)
    (rest : List UInt8) : read (levels + 1) (writeInt n ++ rest) = some (.int n, rest) := by
  unfold writeInt
  by_cases hpos : 0 ≤ n
  · have hcast : ((n.toNat : Nat) : Int) = n := Int.toNat_of_nonneg hpos
    -- a number of `bytes` bytes behind its marker
    have hwide : ∀ code bytes, n.toNat < 256 ^ bytes → code < 256 → (0xa0 ≤ code ∧ code < 0xdc) →
        (∀ tail, readScalar code tail = (readUInt bytes tail).bind fun p => some (.int p.1, p.2)) →
        read (levels + 1) (marker code (beBytes bytes n.toNat) ++ rest) = some (.int n, rest) := by
      intro code bytes hvalue hcode hrange hscalar
      rw [marker_append]
      apply read_scalar hcode (readShape_scalar (Or.inr (Or.inl hrange)) _)
      rw [hscalar, readUInt_beBytes hvalue, Option.bind_some, hcast]
    simp only [hpos, if_true]
    split
    case isTrue hfix =>
      have hsmall : n.toNat < 0x80 := by omega
      rw [marker_append]
      apply read_scalar (by omega) (readShape_scalar (Or.inl hsmall) _)
      simp only [readScalar, hsmall, if_true, hcast, List.nil_append]
    split
    case isTrue => exact hwide 0xcc 1 (by omega) (by decide) (by decide) fun _ => rfl
    split
    case isTrue => exact hwide 0xcd 2 (by omega) (by decide) (by decide) fun _ => rfl
    split
    case isTrue => exact hwide 0xce 4 (by omega) (by decide) (by decide) fun _ => rfl
    exact hwide 0xcf 8 (by omega) (by decide) (by decide) fun _ => rfl
  · have hneg : n < 0 := Int.not_le.mp hpos
    have hwide : ∀ code bytes, 0 < bytes → -2 ^ (8 * bytes - 1) ≤ n → code < 256 →
        (0xa0 ≤ code ∧ code < 0xdc) →
        (∀ tail, readScalar code tail = (readInt bytes tail).bind fun p => some (.int p.1, p.2)) →
        read (levels + 1) (marker code (beBytes bytes (n + 2 ^ (8 * bytes)).toNat) ++ rest)
          = some (.int n, rest) := by
      intro code bytes hbytes hvalue hcode hrange hscalar
      rw [marker_append]
      apply read_scalar hcode (readShape_scalar (Or.inr (Or.inl hrange)) _)
      rw [hscalar, readInt_beBytes hbytes hvalue hneg, Option.bind_some]
    simp only [hpos, if_false]
    split
    case isTrue hfix =>
      have hlarge : 0xe0 ≤ (n + 256).toNat := by omega
      have hback : (((n + 256).toNat : Nat) : Int) - 256 = n := by omega
      rw [marker_append]
      apply read_scalar (by omega) (readShape_scalar (Or.inr (Or.inr (by omega))) _)
      have hfixint : ¬ (n + 256).toNat < 0x80 := by omega
      have hfixstr : ¬ (n + 256).toNat < 0xc0 := by omega
      simp only [readScalar, hfixint, hfixstr, hlarge, if_true, if_false, hback, List.nil_append]
    split
    case isTrue h8 => exact hwide 0xd0 1 (by decide) h8 (by decide) (by decide) fun _ => rfl
    split
    case isTrue h16 => exact hwide 0xd1 2 (by decide) h16 (by decide) (by decide) fun _ => rfl
    split
    case isTrue h32 => exact hwide 0xd2 4 (by decide) h32 (by decide) (by decide) fun _ => rfl
    exact hwide 0xd3 8 (by decide) hlow (by decide) (by decide) fun _ => rfl

theorem read_sized {levels code bytes : Nat} {wrap : List UInt8 → Msgpack} {data : List UInt8}
    (hcode : 0xa0 ≤ code ∧ code < 0xdc) (hlength : data.length < 256 ^ bytes)
    (hscalar : ∀ tail, readScalar code tail = readSized bytes wrap tail) (rest : List UInt8) :
    read (levels + 1) (marker code (beBytes bytes data.length) ++ (data ++ rest))
      = some (wrap data, rest) := by
  rw [marker_append]
  apply read_scalar (by omega) (readShape_scalar (Or.inr (Or.inl hcode)) _)
  rw [hscalar]
  simp [readSized, readUInt_beBytes hlength, takeBytes_append]

theorem read_writeStr {levels : Nat} {bytes : List UInt8} (h : bytes.length < 2 ^ 32)
    (rest : List UInt8) : read (levels + 1) (writeStr bytes ++ rest) = some (.str bytes, rest) := by
  unfold writeStr
  rw [List.append_assoc]
  split
  case isTrue hfix =>
    rw [marker_append]
    apply read_scalar (by omega) (readShape_scalar (by omega) _)
    have hlow : ¬ 0xa0 + bytes.length < 0x80 := by omega
    have hfixstr : 0xa0 + bytes.length < 0xc0 := by omega
    simp [readScalar, hlow, hfixstr, takeBytes_append]
  split
  case isTrue h8 => exact read_sized (by decide) (by omega) (fun _ => rfl) rest
  split
  case isTrue h16 => exact read_sized (by decide) (by omega) (fun _ => rfl) rest
  exact read_sized (by decide) (by omega) (fun _ => rfl) rest

theorem read_writeBin {levels : Nat} {bytes : List UInt8} (h : bytes.length < 2 ^ 32)
    (rest : List UInt8) : read (levels + 1) (writeBin bytes ++ rest) = some (.bin bytes, rest) := by
  unfold writeBin
  rw [List.append_assoc]
  split
  case isTrue h8 => exact read_sized (by decide) (by omega) (fun _ => rfl) rest
  split
  case isTrue h16 => exact read_sized (by decide) (by omega) (fun _ => rfl) rest
  exact read_sized (by decide) (by omega) (fun _ => rfl) rest

theorem readExt_append {tag : UInt8} {bytes : List UInt8} {n : Nat} (h : bytes.length = n)
    (rest : List UInt8) : readExt n (tag :: bytes ++ rest) = some (.ext tag bytes, rest) := by
  simp [readExt, takeBytes_append h]

theorem read_writeExt {levels : Nat} {tag : UInt8} {bytes : List UInt8} (h : bytes.length < 2 ^ 32)
    (rest : List UInt8) :
    read (levels + 1) (writeExt tag bytes ++ rest) = some (.ext tag bytes, rest) := by
  have hfixed : ∀ code, (0xa0 ≤ code ∧ code < 0xdc) →
      (∀ tail, readScalar code tail = readExt bytes.length tail) →
      read (levels + 1) (marker code [] ++ (tag :: bytes ++ rest)) = some (.ext tag bytes, rest) := by
    intro code hcode hscalar
    rw [marker_append]
    apply read_scalar (by omega) (readShape_scalar (Or.inr (Or.inl hcode)) _)
    rw [hscalar, List.nil_append, readExt_append rfl]
  have hsized : ∀ code width, (0xa0 ≤ code ∧ code < 0xdc) → bytes.length < 256 ^ width →
      (∀ tail, readScalar code tail = (readUInt width tail).bind fun p => readExt p.1 p.2) →
      read (levels + 1) (marker code (beBytes width bytes.length) ++ (tag :: bytes ++ rest))
        = some (.ext tag bytes, rest) := by
    intro code width hcode hlength hscalar
    rw [marker_append]
    apply read_scalar (by omega) (readShape_scalar (Or.inr (Or.inl hcode)) _)
    rw [hscalar, readUInt_beBytes hlength, Option.bind_some, readExt_append rfl]
  unfold writeExt
  rw [List.append_assoc]
  split
  case isTrue h1 => exact hfixed 0xd4 (by decide) fun _ => by rw [h1]; rfl
  split
  case isTrue h2 => exact hfixed 0xd5 (by decide) fun _ => by rw [h2]; rfl
  split
  case isTrue h4 => exact hfixed 0xd6 (by decide) fun _ => by rw [h4]; rfl
  split
  case isTrue h8 => exact hfixed 0xd7 (by decide) fun _ => by rw [h8]; rfl
  split
  case isTrue h16 => exact hfixed 0xd8 (by decide) fun _ => by rw [h16]; rfl
  split
  case isTrue => exact hsized 0xc7 1 (by decide) (by omega) fun _ => rfl
  split
  case isTrue => exact hsized 0xc8 2 (by decide) (by omega) fun _ => rfl
  exact hsized 0xc9 4 (by decide) (by omega) fun _ => rfl

theorem read_array {levels count : Nat} {tail mid rest : List UInt8} {items : List Msgpack} {n : Nat}
    (hn : n < 256) (hlevels : levels ≠ 0) (hshape : readShape n tail = some (.array count, mid))
    (h : readMany (read levels) count mid = some (items, rest)) :
    read (levels + 1) (marker n tail) = some (.array items, rest) := by
  have hmarker : (UInt8.ofNat n).toNat = n := by
    rw [UInt8.toNat_ofNat']
    omega
  simp [marker, read, hmarker, hshape, hlevels, h]

theorem read_map {levels count : Nat} {tail mid rest : List UInt8}
    {entries : List (Msgpack × Msgpack)} {n : Nat}
    (hn : n < 256) (hlevels : levels ≠ 0) (hshape : readShape n tail = some (.map count, mid))
    (h : readMany (readPair (read levels)) count mid = some (entries, rest)) :
    read (levels + 1) (marker n tail) = some (.map entries, rest) := by
  have hmarker : (UInt8.ofNat n).toNat = n := by
    rw [UInt8.toNat_ofNat']
    omega
  simp [marker, read, hmarker, hshape, hlevels, h]

theorem read_writeArrayLen {levels count : Nat} {items : List Msgpack} {tail rest : List UInt8}
    (hlevels : levels ≠ 0) (hcount : count < 2 ^ 32)
    (h : readMany (read levels) count tail = some (items, rest)) :
    read (levels + 1) (writeArrayLen count ++ tail) = some (.array items, rest) := by
  unfold writeArrayLen
  split
  case isTrue hfix =>
    rw [marker_append]
    apply read_array (by omega) hlevels _ h
    have hmap : ¬ (0x80 ≤ 0x90 + count ∧ 0x90 + count < 0x90) := by omega
    have harray : 0x90 ≤ 0x90 + count ∧ 0x90 + count < 0xa0 := by omega
    simp only [readShape, hmap, harray, if_true, if_false, Nat.add_sub_cancel_left,
      List.nil_append, and_self]
  split
  case isTrue h16 =>
    rw [marker_append]
    apply read_array (by decide) hlevels _ h
    simp [readShape, readUInt_beBytes (n := 2) (v := count) (by omega)]
  rw [marker_append]
  apply read_array (by decide) hlevels _ h
  simp [readShape, readUInt_beBytes (n := 4) (v := count) (by omega)]

theorem read_writeMapLen {levels count : Nat} {entries : List (Msgpack × Msgpack)}
    {tail rest : List UInt8} (hlevels : levels ≠ 0) (hcount : count < 2 ^ 32)
    (h : readMany (readPair (read levels)) count tail = some (entries, rest)) :
    read (levels + 1) (writeMapLen count ++ tail) = some (.map entries, rest) := by
  unfold writeMapLen
  split
  case isTrue hfix =>
    rw [marker_append]
    apply read_map (by omega) hlevels _ h
    have hmap : 0x80 ≤ 0x80 + count ∧ 0x80 + count < 0x90 := by omega
    simp only [readShape, hmap, if_true, Nat.add_sub_cancel_left, List.nil_append, and_self]
  split
  case isTrue h16 =>
    rw [marker_append]
    apply read_map (by decide) hlevels _ h
    simp [readShape, readUInt_beBytes (n := 2) (v := count) (by omega)]
  rw [marker_append]
  apply read_map (by decide) hlevels _ h
  simp [readShape, readUInt_beBytes (n := 4) (v := count) (by omega)]

/-! ### One value -/

mutual

/-- What fits the levels of the reader is read back off the front. -/
theorem read_write {levels : Nat} {v : Msgpack} (h : fits levels v = true) (rest : List UInt8) :
    read levels (write v ++ rest) = some (v, rest) := by
  cases levels with
  | zero => cases v <;> simp [fits] at h
  | succ levels =>
      cases v with
      | nil => rfl
      | bool b => cases b <;> rfl
      | int n =>
          simp only [fits, Bool.and_eq_true, decide_eq_true_eq] at h
          exact read_writeInt h.1 h.2 rest
      | float32 bits =>
          simp only [fits, decide_eq_true_eq] at h
          rw [write, marker_append]
          apply read_scalar (by decide) (readShape_scalar (by decide) _)
          simp [readScalar, readUInt_beBytes (n := 4) (v := bits) h]
      | float64 bits =>
          simp only [fits, decide_eq_true_eq] at h
          rw [write, marker_append]
          apply read_scalar (by decide) (readShape_scalar (by decide) _)
          simp [readScalar, readUInt_beBytes (n := 8) (v := bits) h]
      | str bytes =>
          simp only [fits, decide_eq_true_eq] at h
          exact read_writeStr h rest
      | bin bytes =>
          simp only [fits, decide_eq_true_eq] at h
          exact read_writeBin h rest
      | ext tag bytes =>
          simp only [fits, decide_eq_true_eq] at h
          exact read_writeExt h rest
      | array items =>
          simp only [fits, Bool.and_eq_true, decide_eq_true_eq] at h
          rw [write, List.append_assoc]
          exact read_writeArrayLen h.1.1 h.1.2 (readMany_writeItems h.2 rest)
      | map entries =>
          simp only [fits, Bool.and_eq_true, decide_eq_true_eq] at h
          rw [write, List.append_assoc]
          exact read_writeMapLen h.1.1 h.1.2 (readMany_writeEntries h.2 rest)

theorem readMany_writeItems {levels : Nat} {items : List Msgpack}
    (h : fitsItems levels items = true) (rest : List UInt8) :
    readMany (read levels) items.length (writeItems items ++ rest) = some (items, rest) := by
  cases items with
  | nil => rfl
  | cons item items =>
      simp only [fitsItems, Bool.and_eq_true] at h
      rw [writeItems, List.append_assoc, List.length_cons, readMany, read_write h.1 _]
      simp [readMany_writeItems h.2 rest]

theorem readMany_writeEntries {levels : Nat} {entries : List (Msgpack × Msgpack)}
    (h : fitsEntries levels entries = true) (rest : List UInt8) :
    readMany (readPair (read levels)) entries.length (writeEntries entries ++ rest)
      = some (entries, rest) := by
  cases entries with
  | nil => rfl
  | cons entry entries =>
      obtain ⟨k, v⟩ := entry
      simp only [fitsEntries, Bool.and_eq_true] at h
      rw [writeEntries, List.append_assoc, List.append_assoc, List.length_cons, readMany, readPair,
        read_write h.1.1 _]
      simp [read_write h.1.2 _, readMany_writeEntries h.2 rest]

end

end Msgpack

/-! ### Writers and readers that agree -/

/-- A MessagePack writer and reader of a program: the writer may refuse a value, and what it
    writes is read back whole. -/
structure MsgpackCodec where
  write : Msgpack → Except String (List UInt8)
  read : List UInt8 → Except String Msgpack
  read_write : ∀ v bytes, write v = .ok bytes → read bytes = .ok v

/-- Shortest forms, nested at most `levels` deep; the reader takes the first value. -/
def MsgpackCodec.shortest (levels : Nat) : MsgpackCodec where
  write v := if Msgpack.fits levels v then .ok (Msgpack.write v) else .error "value does not fit"
  read bytes :=
    match Msgpack.read levels bytes with
    | some (v, _) => .ok v
    | none => .error "invalid value"
  read_write := by
    intro v bytes h
    by_cases hfits : Msgpack.fits levels v = true
    · simp only [hfits, if_true, Except.ok.injEq] at h
      have hread := Msgpack.read_write hfits []
      rw [List.append_nil, h] at hread
      simp [hread]
    · simp [hfits] at h

end Batpak.Util
