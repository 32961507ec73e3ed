/-
Module: Batpak.Util.Delimited
Purpose: Encodings that show where they end, so that fields one after another, counted lists and
  nested lists of them are decided by their bytes.
Trusted boundary: none
Main exports: Delimited, Delimited.pair
-/
import Batpak.Util.Packed

namespace Batpak.Util

variable {α γ δ β : Type}

/-- Two values that fit, written before anything, are told apart by what is written. -/
def Delimited (fits : α → Prop) (write : α → List β) : Prop :=
  ∀ a b, fits a → fits b → ∀ r s, write a ++ r = write b ++ s → a = b ∧ r = s

namespace Delimited

variable {fits : α → Prop} {write : α → List β} {fits' : γ → Prop} {write' : γ → List β}

theorem injective (h : Delimited fits write) {a b : α} (ha : fits a) (hb : fits b)
    (heq : write a = write b) : a = b := by
  apply (h a b ha hb [] [] _).1
  rw [heq]

/-- All of one width. -/
theorem of_width {n : Nat} (hwidth : ∀ a, (write a).length = n)
    (hinj : ∀ a b, fits a → fits b → write a = write b → a = b) : Delimited fits write := by
  intro a b ha hb r s heq
  have hlength : (write a).length = (write b).length := by rw [hwidth, hwidth]
  obtain ⟨hwrite, hrest⟩ := List.append_inj heq hlength
  exact ⟨hinj a b ha hb hwrite, hrest⟩

/-- One field after the other. -/
theorem pair (h : Delimited fits write) (h' : Delimited fits' write') :
    Delimited (fun p : α × γ => fits p.1 ∧ fits' p.2) fun p => write p.1 ++ write' p.2 := by
  intro p q hp hq r s heq
  rw [List.append_assoc, List.append_assoc] at heq
  obtain ⟨hfirst, hrest⟩ := h p.1 q.1 hp.1 hq.1 _ _ heq
  obtain ⟨hsecond, hend⟩ := h' p.2 q.2 hp.2 hq.2 r s hrest
  exact ⟨Prod.ext hfirst hsecond, hend⟩

/-- The fields of a record that they decide. -/
theorem comap (h : Delimited fits write) (fields : δ → α)
    (hfields : ∀ a b, fields a = fields b → a = b) :
    Delimited (fun a => fits (fields a)) fun a => write (fields a) := by
  intro a b ha hb r s heq
  obtain ⟨hsame, hrest⟩ := h _ _ ha hb r s heq
  exact ⟨hfields a b hsame, hrest⟩

theorem mono {fewer : α → Prop} (h : Delimited fits write) (himp : ∀ a, fewer a → fits a) :
    Delimited fewer write := by
  intro a b ha hb
  exact h a b (himp a ha) (himp b hb)

/-- As many values as the reader expects. -/
theorem flatMap (h : Delimited fits write) {xs ys : List α} (hxs : ∀ x ∈ xs, fits x)
    (hys : ∀ y ∈ ys, fits y) (hlength : xs.length = ys.length) {r s : List β}
    (heq : xs.flatMap write ++ r = ys.flatMap write ++ s) : xs = ys ∧ r = s := by
  induction xs generalizing ys with
  | nil =>
      cases List.eq_nil_of_length_eq_zero hlength.symm
      exact ⟨rfl, heq⟩
  | cons x xs ih =>
      cases ys with
      | nil => simp at hlength
      | cons y ys =>
          simp only [List.flatMap_cons, List.append_assoc] at heq
          obtain ⟨hhead, htail⟩ := h x y (hxs x (by simp)) (hys y (by simp)) _ _ heq
          have hxs' : ∀ x ∈ xs, fits x := fun x hx => hxs x (by simp [hx])
          have hys' : ∀ y ∈ ys, fits y := fun y hy => hys y (by simp [hy])
          obtain ⟨hrest, hend⟩ := ih hxs' hys' (by simpa using hlength) htail
          exact ⟨by rw [hhead, hrest], hend⟩

end Delimited

/-! ### Counts -/

theorem beBytes_injOn {n a b : Nat} (ha : a < 256 ^ n) (hb : b < 256 ^ n)
    (h : beBytes n a = beBytes n b) : a = b := by
  rw [← beValue_beBytes ha, h, beValue_beBytes hb]

theorem delimited_beBytes (n : Nat) : Delimited (· < 256 ^ n) (beBytes n) :=
  Delimited.of_width (length_beBytes n) fun _ _ => beBytes_injOn

/-- A word in as many bytes as it has. -/
theorem delimited_word (n : Nat) :
    Delimited (fun _ => True) fun b : BitVec (8 * n) => beBytes n b.toNat := by
  have hlt : ∀ b : BitVec (8 * n), b.toNat < 256 ^ n := by
    intro b
    calc b.toNat < 2 ^ (8 * n) := b.isLt
      _ = 256 ^ n := Nat.pow_mul 2 8 n
  have h : ∀ a b : BitVec (8 * n), beBytes n a.toNat = beBytes n b.toNat → a = b :=
    fun a b heq => BitVec.eq_of_toNat_eq (beBytes_injOn (hlt a) (hlt b) heq)
  exact Delimited.of_width (fun _ => length_beBytes n _) fun a b _ _ => h a b

/-- A list after its length. -/
def countedBytes (width : Nat) (write : α → List UInt8) (xs : List α) : List UInt8 :=
  beBytes width xs.length ++ xs.flatMap write

theorem Delimited.counted {fits : α → Prop} {write : α → List UInt8} (h : Delimited fits write)
    (width : Nat) :
    Delimited (fun xs : List α => xs.length < 256 ^ width ∧ ∀ x ∈ xs, fits x)
      (countedBytes width write) := by
  intro xs ys hxs hys r s heq
  rw [countedBytes, countedBytes, List.append_assoc, List.append_assoc] at heq
  obtain ⟨hlength, hrest⟩ := delimited_beBytes width _ _ hxs.1 hys.1 _ _ heq
  exact h.flatMap hxs.2 hys.2 hlength hrest

theorem delimited_singleton : Delimited (fun _ : β => True) fun b : β => [b] := by
  apply Delimited.of_width (fun _ => List.length_singleton)
  intro a b _ _ heq
  exact List.singleton_inj.mp heq

end Batpak.Util
