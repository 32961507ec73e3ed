/-
Module: Batpak.Proofs.CircuitRules
Purpose: Rules of pre- and postconditions for circuit building: what the nodes evaluate to, how an
  action extends that, and at what cost in nodes.
Trusted boundary: none
Main exports: Emits.bind, emits_inputSlot
-/
import Batpak.Bvisor.ScheduleCircuit
import Batpak.Util.Scan

namespace Batpak.Bvisor

open Batpak.Util

variable {width : Width}

/-! ### Lanes of numbers -/

/-- The low bits of a number as a lane. -/
def laneOf (w n : Nat) : Lane :=
  (List.range w).map n.testBit

@[simp] theorem length_laneOf (w n : Nat) : (laneOf w n).length = w := by
  simp [laneOf]

theorem laneOf_eq_iff {w a b : Nat} (ha : a < 2 ^ w) (hb : b < 2 ^ w) :
    laneOf w a = laneOf w b ↔ a = b := by
  constructor
  · intro h
    apply Nat.eq_of_testBit_eq
    intro i
    by_cases hi : i < w
    · exact List.map_inj_left.mp h i (List.mem_range.mpr hi)
    · have hle : 2 ^ w ≤ 2 ^ i := Nat.pow_le_pow_right Nat.two_pos (Nat.not_lt.mp hi)
      rw [Nat.testBit_lt_two_pow (Nat.lt_of_lt_of_le ha hle),
        Nat.testBit_lt_two_pow (Nat.lt_of_lt_of_le hb hle)]
  · rintro rfl
    rfl

theorem laneOf_succ (w n : Nat) : laneOf (w + 1) n = laneOf w n ++ [n.testBit w] := by
  simp [laneOf, List.range_succ]

theorem cmpFrom_cons_self (a : Bool) (as bs : List Bool) :
    Lane.cmpFrom (a :: as) (a :: bs) = Lane.cmpFrom as bs := by
  cases a with
  | true => rfl
  | false => rfl

theorem mod_two_pow_succ (n w : Nat) :
    n % 2 ^ (w + 1) = n % 2 ^ w + 2 ^ w * (n.testBit w).toNat := by
  rw [Nat.mod_pow_succ, ← Nat.toNat_testBit]

theorem cmpFrom_laneOf (w a b : Nat) :
    Lane.cmpUnsigned (laneOf w a) (laneOf w b) = compare (a % 2 ^ w) (b % 2 ^ w) := by
  unfold Lane.cmpUnsigned
  induction w with
  | zero => simp [laneOf, Lane.cmpFrom, Nat.mod_one]
  | succ w ih =>
      have hpow : 0 < 2 ^ w := Nat.two_pow_pos w
      have ha := Nat.mod_lt a hpow
      have hb := Nat.mod_lt b hpow
      rw [laneOf_succ, laneOf_succ, List.reverse_append, List.reverse_append, List.reverse_singleton,
        List.reverse_singleton, List.singleton_append, List.singleton_append, mod_two_pow_succ,
        mod_two_pow_succ]
      cases habit : a.testBit w with
      | true =>
          cases hbbit : b.testBit w with
          | true =>
              rw [cmpFrom_cons_self, ih]
              simp only [Nat.compare_eq_ite_lt, Nat.add_lt_add_iff_right]
          | false =>
              rw [Lane.cmpFrom]
              simp only [Bool.toNat_true, Bool.toNat_false, Nat.mul_one, Nat.mul_zero, Nat.add_zero]
              exact (Nat.compare_eq_gt.mpr (by omega)).symm
      | false =>
          cases hbbit : b.testBit w with
          | true =>
              rw [Lane.cmpFrom]
              simp only [Bool.toNat_true, Bool.toNat_false, Nat.mul_one, Nat.mul_zero, Nat.add_zero]
              exact (Nat.compare_eq_lt.mpr (by omega)).symm
          | false =>
              rw [cmpFrom_cons_self, ih]
              simp

theorem subset_laneOf (w a b : Nat) :
    ((laneOf w a).zip (laneOf w b)).all (fun p => !p.1 || p.2) =
      decide (∀ k < w, a.testBit k = true → b.testBit k = true) := by
  have hzip : (laneOf w a).zip (laneOf w b) =
      (List.range w).map fun k => (a.testBit k, b.testBit k) := by
    unfold laneOf
    rw [List.zip_map']
  rw [hzip, Bool.eq_iff_iff, List.all_eq_true, decide_eq_true_iff, List.forall_mem_map]
  constructor
  · intro h k hk ha
    have hp := h k (List.mem_range.mpr hk)
    simpa [ha] using hp
  · intro h k hk
    have hb := h k (List.mem_range.mp hk)
    cases ha : a.testBit k with
    | true => simp [hb ha]
    | false => rfl

theorem intersection_laneOf (w a b : Nat) :
    ((laneOf w a).zip (laneOf w b)).map (fun p => p.1 && p.2) = laneOf w (a &&& b) := by
  unfold laneOf
  rw [List.zip_map', List.map_map]
  apply List.map_congr_left
  intro k _
  exact (Nat.testBit_and a b k).symm

theorem testBit_toLeBytes (value : BitVec 64) (i : Nat) :
    ((toLeBytes value).getD (i / 8) 0).getLsbD (i % 8) = value.toNat.testBit i := by
  unfold toLeBytes
  by_cases hi : i < 64
  · have hk : i / 8 < 8 := by omega
    rw [List.getD_eq_getElem?_getD, List.getElem?_map, List.getElem?_range hk]
    simp only [Option.map_some, Option.getD_some]
    rw [BitVec.getLsbD_setWidth, BitVec.getLsbD_ushiftRight]
    have hmod : i % 8 < 8 := Nat.mod_lt _ (by decide)
    have hsum : 8 * (i / 8) + i % 8 = i := Nat.div_add_mod i 8
    rw [hsum, decide_eq_true hmod, Bool.true_and]
    rfl
  · have hk : ¬i / 8 < 8 := by omega
    rw [List.getD_eq_default _ _ (by simpa using Nat.not_lt.mp hk)]
    have hlt : value.toNat < 2 ^ i :=
      Nat.lt_of_lt_of_le value.isLt (Nat.pow_le_pow_right Nat.two_pos (Nat.not_lt.mp hi))
    simp [Nat.testBit_lt_two_pow hlt]

theorem fromLeBytes_toLeBytes (value : BitVec 64) (width : Width) :
    Lane.fromLeBytes (toLeBytes value) width = laneOf width.bits value.toNat := by
  apply List.map_congr_left
  intro i _
  exact testBit_toLeBytes value i

theorem lane_eq (value : BitVec 64) (width : Width) :
    lane value width = laneOf width.bits value.toNat := by
  apply List.map_congr_left
  intro i hi
  have hlt : i / 8 < (width.bits + 7) / 8 := by
    have := List.mem_range.mp hi
    omega
  unfold leBytes
  rw [List.getD_eq_getElem?_getD, List.getElem?_take_of_lt hlt, ← List.getD_eq_getElem?_getD]
  exact testBit_toLeBytes value i

theorem fromLeBytes_byte (byte : BitVec 8) (h : width.bits ≤ 8) :
    Lane.fromLeBytes [byte] width = laneOf width.bits byte.toNat := by
  apply List.map_congr_left
  intro i hi
  have hlt := Nat.lt_of_lt_of_le (List.mem_range.mp hi) h
  have hdiv : i / 8 = 0 := Nat.div_eq_of_lt hlt
  have hmod : i % 8 = i := Nat.mod_eq_of_lt hlt
  rw [hdiv, hmod]
  rfl

/-! ### What the nodes so far evaluate to -/

/-- The builder's nodes point backwards and evaluate to the given lanes, and of the input
vector it has declared all but `rest`. -/
structure Good (x rest : List Lane) (b : CircuitBuilder) (v : List Lane) : Prop where
  eval : evalNodes x [] b.nodes = .ok v
  canonical : ∀ count, b.nodes.length ≤ count →
    AdmissionProgram.checkNodes count 0 b.nodes = .ok ()
  declared : ∃ used, x = used ++ rest ∧ b.inputs.map (·.bits) = used.map List.length

/-- A node evaluates to a lane. -/
def Holds (v : List Lane) (id : NodeId) (lane : Lane) : Prop :=
  v[id]? = some lane

/-- A node evaluates to the truth value of a statement. -/
def Bit (v : List Lane) (id : NodeId) (P : Prop) : Prop :=
  ∃ p, Holds v id [p] ∧ (p = true ↔ P)

/-- A node evaluates to the low bits of a number. -/
def Word (v : List Lane) (w : Nat) (id : NodeId) (n : Nat) : Prop :=
  Holds v id (laneOf w n)

theorem Holds.mono {v v' : List Lane} {id : NodeId} {l : Lane} (h : Holds v id l)
    (hext : v <+: v') : Holds v' id l := by
  obtain ⟨t, rfl⟩ := hext
  unfold Holds at h ⊢
  obtain ⟨hlt, -⟩ := List.getElem?_eq_some_iff.mp h
  rw [List.getElem?_append_left hlt, h]

theorem Bit.mono {v v' : List Lane} {id : NodeId} {P : Prop} (h : Bit v id P) (hext : v <+: v') :
    Bit v' id P := by
  obtain ⟨p, hp, hiff⟩ := h
  exact ⟨p, hp.mono hext, hiff⟩

theorem Bit.congr {v : List Lane} {id : NodeId} {P Q : Prop} (h : Bit v id P) (hPQ : P ↔ Q) :
    Bit v id Q := by
  obtain ⟨p, hp, hiff⟩ := h
  exact ⟨p, hp, hiff.trans hPQ⟩

theorem Word.mono {v v' : List Lane} {w n : Nat} {id : NodeId} (h : Word v w id n)
    (hext : v <+: v') : Word v' w id n :=
  Holds.mono h hext

theorem evalNodes_length {x v v' : List Lane} {nodes : List Node}
    (h : evalNodes x v nodes = .ok v') : v'.length = v.length + nodes.length := by
  induction nodes generalizing v with
  | nil =>
      cases h
      rfl
  | cons node rest ih =>
      obtain ⟨operands, -, h⟩ := bindOk_iff.mp h
      obtain ⟨lane, -, h⟩ := bindOk_iff.mp h
      rw [ih h]
      simp only [List.length_append, List.length_cons, List.length_nil]
      omega

theorem Good.length_eq {x rest v : List Lane} {b : CircuitBuilder} (h : Good x rest b v) :
    v.length = b.nodes.length := by
  rw [evalNodes_length h.eval]
  simp

theorem evalNodes_snoc {x v v' : List Lane} {nodes : List Node} {node : Node}
    {operands : List Lane} {lane : Lane} (h : evalNodes x v nodes = .ok v')
    (hoperands : resolveAll v' v'.length node.operands = .ok operands)
    (hlane : evalNode v'.length node operands x = .ok lane) :
    evalNodes x v (nodes ++ [node]) = .ok (v' ++ [lane]) := by
  induction nodes generalizing v with
  | nil =>
      cases h
      rw [List.nil_append, evalNodes, hoperands]
      change (do
        let lane ← evalNode v'.length node operands x
        evalNodes x (v' ++ [lane]) []) = _
      rw [hlane]
      rfl
  | cons n rest ih =>
      obtain ⟨ops, hops, h⟩ := bindOk_iff.mp h
      obtain ⟨l, hl, h⟩ := bindOk_iff.mp h
      rw [List.cons_append, evalNodes, hops]
      change (do
        let l ← evalNode v.length n ops x
        evalNodes x (v ++ [l]) (rest ++ [node])) = _
      rw [hl]
      exact ih h

theorem checkOperands_ok {i count : Nat} {operands : List NodeId} (hi : i ≤ count)
    (h : ∀ o ∈ operands, o < i) : AdmissionProgram.checkOperands i count operands = .ok () := by
  induction operands with
  | nil => rfl
  | cons o rest ih =>
      have ho : o < i := h o List.mem_cons_self
      rw [AdmissionProgram.checkOperands, if_neg (Nat.not_le.mpr (Nat.lt_of_lt_of_le ho hi)),
        if_neg (Nat.not_le.mpr ho)]
      exact ih fun o' ho' => h o' (List.mem_cons_of_mem _ ho')

theorem checkNodes_snoc {count i : Nat} {nodes : List Node} {node : Node}
    (h : AdmissionProgram.checkNodes count i nodes = .ok ())
    (harity : node.operands.length = node.op.operandCount)
    (hoperands : ∀ o ∈ node.operands, o < i + nodes.length) (hcount : i + nodes.length ≤ count) :
    AdmissionProgram.checkNodes count i (nodes ++ [node]) = .ok () := by
  induction nodes generalizing i with
  | nil =>
      have hchecked : AdmissionProgram.checkOperands i count node.operands = .ok () :=
        checkOperands_ok hcount hoperands
      rw [List.nil_append, AdmissionProgram.checkNodes, if_neg (by simpa using harity), hchecked]
      rfl
  | cons n rest ih =>
      rw [AdmissionProgram.checkNodes] at h
      rw [List.cons_append, AdmissionProgram.checkNodes]
      split at h
      · cases h
      · rename_i hn
        rw [if_neg hn]
        split at h
        · cases h
        · have hlength : i + 1 + rest.length = i + (n :: rest).length := by
            rw [List.length_cons]
            omega
          apply ih h
          · rw [hlength]
            exact hoperands
          · rw [hlength]
            exact hcount

theorem resolveAll_ok {v : List Lane} {i : Nat} {operands : List NodeId} {lanes : List Lane}
    (h : List.Forall₂ (Holds v) operands lanes) : resolveAll v i operands = .ok lanes := by
  induction h with
  | nil => rfl
  | @cons o l os ls ho hrest ih =>
      have hresolve : resolve v i o = .ok l := by
        unfold resolve
        rw [ho]
      rw [resolveAll, hresolve]
      change (do
        let lanes ← resolveAll v i os
        return l :: lanes) = _
      rw [ih]
      rfl

theorem Holds.lt {v : List Lane} {id : NodeId} {l : Lane} (h : Holds v id l) : id < v.length :=
  (List.getElem?_eq_some_iff.mp h).1

/-! ### The rules -/

/-- From every builder whose nodes evaluate to `v` and that has yet to declare `r`, the action
adds at most `c` nodes, leaves `r'` to declare, and its result has the property over the
extended lanes. -/
def Emits {α : Type} (x : List Lane) (c : Nat) (r r' v : List Lane) (m : Build α)
    (post : List Lane → α → Prop) : Prop :=
  ∀ b, Good x r b v → b.nodes.length + c ≤ u32Max →
    ∃ v', v <+: v' ∧ Good x r' (m b).2 v' ∧ (m b).2.nodes.length ≤ b.nodes.length + c ∧
      post v' (m b).1

section Rules

variable {α β : Type} {x v r r' r'' : List Lane} {c c' : Nat}

theorem Emits.weaken {m : Build α} {post post' : List Lane → α → Prop} (hc : c ≤ c')
    (himp : ∀ v' a, v <+: v' → post v' a → post' v' a) (h : Emits x c r r' v m post) :
    Emits x c' r r' v m post' := by
  intro b hb hsize
  obtain ⟨v', hext, hgood, hgrown, hpost⟩ := h b hb (by omega)
  exact ⟨v', hext, hgood, by omega, himp v' _ hext hpost⟩

theorem Emits.cost {m : Build α} {post : List Lane → α → Prop} (hc : c ≤ c')
    (h : Emits x c r r' v m post) : Emits x c' r r' v m post :=
  h.weaken hc fun _ _ _ hpost => hpost

theorem Emits.pure {post : List Lane → α → Prop} {a : α} (h : post v a) :
    Emits x c r r v (pure a) post := by
  intro b hb _
  exact ⟨v, List.prefix_refl v, hb, Nat.le_add_right _ _, h⟩

theorem Emits.bind {m : Build α} {f : α → Build β} {mid : List Lane → α → Prop}
    {post : List Lane → β → Prop} (h : Emits x c r r' v m mid)
    (hnext : ∀ v' a, v <+: v' → mid v' a → Emits x c' r' r'' v' (f a) post) :
    Emits x (c + c') r r'' v (m >>= f) post := by
  intro b hb hsize
  obtain ⟨v₁, hext, hgood, hgrown, hmid⟩ := h b hb (by omega)
  obtain ⟨v₂, hext', hgood', hgrown', hpost⟩ := hnext v₁ _ hext hmid _ hgood (by omega)
  have hsum : (f (m b).1 (m b).2).2.nodes.length ≤ b.nodes.length + (c + c') := by omega
  exact ⟨v₂, hext.trans hext', hgood', hsum, hpost⟩

/-- Appending a node whose operands are known. -/
theorem emits_push {op : NodeOp} {operands : List NodeId} {lanes : List Lane}
    {l : Lane} (harity : operands.length = op.operandCount)
    (hoperands : List.Forall₂ (Holds v) operands lanes)
    (heval : ∀ i, evalNode i ⟨op, operands, width⟩ lanes x = .ok l) :
    Emits x 1 r r v (push op operands width) fun v' id => Holds v' id l := by
  intro b hb hsize
  have hlength := hb.length_eq
  have hid : min b.nodes.length u32Max = v.length := by omega
  refine ⟨v ++ [l], List.prefix_append _ _, ?_, ?_, ?_⟩
  · refine ⟨?_, ?_, hb.declared⟩
    · exact evalNodes_snoc hb.eval (resolveAll_ok hoperands) (heval _)
    · intro count hcount
      change (b.nodes ++ [_]).length ≤ count at hcount
      rw [List.length_append, List.length_singleton] at hcount
      apply checkNodes_snoc (hb.canonical count (by omega)) harity
      · intro o ho
        rw [Nat.zero_add, ← hlength]
        obtain ⟨i, hi, rfl⟩ := List.getElem_of_mem ho
        exact Holds.lt (hoperands.get hi (hoperands.length_eq ▸ hi))
      · omega
  · change (b.nodes ++ [_]).length ≤ _
    rw [List.length_append, List.length_singleton]
  · change (v ++ [l])[min b.nodes.length u32Max]? = some l
    rw [hid, List.getElem?_concat_length]

/-- Declaring the next input lane. The node reads the slot of its lane, or the last slot when
the lanes no longer fit. -/
theorem emits_inputSlot {lane read : Lane} (hwidth : lane.length = width.bits)
    (hread : x[min (x.length - (r.length + 1)) u16Max]? = some read)
    (hreadWidth : read.length = width.bits) :
    Emits x 1 (lane :: r) r v (input width) fun v' id => Holds v' id read := by
  intro b hb hsize
  obtain ⟨used, hused, hinputs⟩ := hb.declared
  have hlength : b.inputs.length = used.length := by
    have := congrArg List.length hinputs
    rwa [List.length_map, List.length_map] at this
  have hslot : b.inputs.length = x.length - (r.length + 1) := by
    rw [hused, List.length_append, List.length_cons]
    omega
  have hgood : Good x r { b with inputs := b.inputs ++ [width] } v := by
    refine ⟨hb.eval, hb.canonical, used ++ [lane], ?_, ?_⟩
    · rw [hused, List.append_assoc, List.singleton_append]
    · change (b.inputs ++ [width]).map (·.bits) = _
      rw [List.map_append, hinputs, List.map_append, List.map_singleton, List.map_singleton, hwidth]
  have hpush : Emits x 1 r r v (push (.input (min b.inputs.length u16Max)) [] width) fun v' id =>
      Holds v' id read := by
    apply emits_push rfl .nil
    intro i
    rw [hslot]
    simp only [evalNode, opInput, hread, requireWidth, hreadWidth, if_true]
  exact hpush _ hgood hsize

/-- Declaring the next input lane, when it has a slot of its own. -/
theorem emits_inputWithin {lane : Lane} (hx : x.length ≤ u16Max + 1 + r.length)
    (hwidth : lane.length = width.bits) :
    Emits x 1 (lane :: r) r v (input width) fun v' id => Holds v' id lane := by
  intro b hb hsize
  obtain ⟨used, hused, -⟩ := hb.declared
  have hslot : min (x.length - (r.length + 1)) u16Max = used.length := by
    have hlength := congrArg List.length hused
    rw [List.length_append, List.length_cons] at hlength
    omega
  have hlane : x[min (x.length - (r.length + 1)) u16Max]? = some lane := by
    rw [hslot, hused, List.getElem?_append_right (Nat.le_refl _), Nat.sub_self,
      List.getElem?_cons_zero]
  exact emits_inputSlot hwidth hlane hwidth b hb hsize

theorem emits_input {lane : Lane} (hx : x.length ≤ u16Max + 1) (hwidth : lane.length = width.bits) :
    Emits x 1 (lane :: r) r v (input width) fun v' id => Holds v' id lane :=
  emits_inputWithin (Nat.le_add_right_of_le hx) hwidth

/-- Running an action for each element of a list that is described by another list. -/
theorem emits_collect₂ {ι : Type} {f : ι → Build β} (R : List Lane → ι → α → Prop)
    (post : α → List Lane → β → Prop)
    (hR : ∀ {v v' : List Lane} {i : ι} {a : α}, v <+: v' → R v i a → R v' i a)
    (hmono : ∀ a {v v' : List Lane} {y : β}, v <+: v' → post a v y → post a v' y)
    {items : List ι} {xs : List α} (hrel : List.Forall₂ (R v) items xs)
    (h : ∀ i, ∀ a ∈ xs, ∀ v', v <+: v' → R v' i a → Emits x c r r v' (f i) (post a)) :
    Emits x (xs.length * c) r r v (collect f items) fun v' ys =>
      List.Forall₂ (fun a y => post a v' y) xs ys := by
  induction xs generalizing v items with
  | nil =>
      cases hrel
      exact Emits.pure .nil
  | cons a rest ih =>
      cases hrel with
      | @cons i _ items _ hi hitems =>
          have hcost : c + (rest.length * c + 0) = (a :: rest).length * c := by
            rw [List.length_cons, Nat.succ_mul]
            omega
          rw [← hcost]
          apply (h i a List.mem_cons_self v (List.prefix_refl v) hi).bind
          intro v₁ y hext hy
          apply (ih (hitems.imp fun _ _ hia => hR hext hia) fun i' a' ha' v' hv' =>
            h i' a' (List.mem_cons_of_mem _ ha') v' (hext.trans hv')).bind
          intro v₂ ys hext' hys
          exact Emits.pure (.cons (hmono a hext' hy) hys)

/-- Running an action for each element. -/
theorem emits_collect {f : α → Build β} (post : α → List Lane → β → Prop)
    (hmono : ∀ a {v v' : List Lane} {y : β}, v <+: v' → post a v y → post a v' y) {xs : List α}
    (h : ∀ a ∈ xs, ∀ v', v <+: v' → Emits x c r r v' (f a) (post a)) :
    Emits x (xs.length * c) r r v (collect f xs) fun v' ys =>
      List.Forall₂ (fun a y => post a v' y) xs ys := by
  apply emits_collect₂ (fun _ i a => i = a) post (fun _ heq => heq) hmono
    (List.forall₂_same.mpr fun _ _ => rfl)
  intro i a ha v' hext heq
  rw [heq]
  exact h a ha v' hext

/-- Declaring a block of input lanes of one width. -/
theorem emits_inputsWithin {width : Width} {lanes : List Lane}
    (hx : x.length ≤ u16Max + 1 + r.length) (hwidth : ∀ l ∈ lanes, l.length = width.bits) :
    Emits x lanes.length (lanes ++ r) r v (inputs lanes.length width) fun v' ids =>
      List.Forall₂ (Holds v') ids lanes := by
  have hrange : ∀ (items : List Nat) {v : List Lane}, items.length = lanes.length →
      Emits x lanes.length (lanes ++ r) r v (collect (fun _ => input width) items)
        fun v' ids => List.Forall₂ (Holds v') ids lanes := by
    induction lanes with
    | nil =>
        intro items v hlength
        rw [List.length_nil, List.length_eq_zero_iff] at hlength
        rw [hlength]
        exact Emits.pure .nil
    | cons l lanes ih =>
        intro items v hlength
        cases items with
        | nil => cases hlength
        | cons _ items =>
            have hcost : 1 + (lanes.length + 0) = lanes.length + 1 := by omega
            have hfits : x.length ≤ u16Max + 1 + (lanes ++ r).length := by
              rw [List.length_append]
              omega
            rw [List.length_cons, ← hcost]
            apply (emits_inputWithin hfits (hwidth l List.mem_cons_self)).bind
            intro v₁ id hext hid
            apply (ih (fun l' hl' => hwidth l' (List.mem_cons_of_mem _ hl')) items
              (Nat.succ.inj hlength)).bind
            intro v₂ ids hext' hids
            exact Emits.pure (.cons (hid.mono hext') hids)
  exact hrange _ List.length_range

end Rules

/-! ### Single nodes -/

section Nodes

variable {x v r : List Lane} {w m n : Nat} {a b : NodeId} {P Q : Prop}

theorem emits_constant {bytes : List (BitVec 8)} (h : bytes.length = (width.bits + 7) / 8) :
    Emits x 1 r r v (constant bytes width) fun v' id =>
      Holds v' id (Lane.fromLeBytes bytes width) := by
  apply emits_push rfl .nil
  intro i
  simp only [evalNode, opConstant, h, ne_eq, not_true_eq_false, if_false]

theorem emits_byte {byte : BitVec 8} {width : Width} (h : 1 ≤ width.bits ∧ width.bits ≤ 8) :
    Emits x 1 r r v (constant [byte] width) fun v' id => Word v' width.bits id byte.toNat := by
  have hlength : [byte].length = (width.bits + 7) / 8 := by
    rw [List.length_singleton]
    omega
  apply (emits_constant hlength).weaken (Nat.le_refl _)
  intro v' id _ hid
  rw [fromLeBytes_byte byte h.2] at hid
  exact hid

theorem emits_konst {value : BitVec 64} (h : width.bits ≤ 64) :
    Emits x 1 r r v (konst value width) fun v' id => Word v' width.bits id value.toNat := by
  have hlength : (leBytes value width).length = (width.bits + 7) / 8 := by
    simp only [leBytes, toLeBytes, List.length_take, List.length_map, List.length_range]
    omega
  apply (emits_constant hlength).weaken (Nat.le_refl _)
  intro v' id _ hid
  rw [Word, ← lane_eq]
  exact hid

theorem requirePair_ok {node : Nat} {la lb : Lane} (h : la.length = lb.length) :
    requirePair node la lb = .ok la.length := by
  unfold requirePair
  rw [if_pos h]

theorem emits_compareUle (hm : m < 2 ^ w) (hn : n < 2 ^ w) (ha : Word v w a m)
    (hb : Word v w b n) :
    Emits x 1 r r v (compareUle a b) fun v' id => Bit v' id (m ≤ n) := by
  apply (emits_push (l := [decide (m ≤ n)]) rfl (.cons ha (.cons hb .nil)) _).weaken
    (Nat.le_refl _)
  · intro v' id _ hid
    exact ⟨_, hid, decide_eq_true_iff⟩
  · intro i
    have hcmp : decide (compare m n ≠ .gt) = decide (m ≤ n) := by
      simp [Nat.compare_ne_gt]
    simp only [evalNode, opCompare, List.getD_cons_zero, List.getD_cons_succ, cmpFrom_laneOf,
      requirePair_ok (length_laneOf w m |>.trans (length_laneOf w n).symm),
      Nat.mod_eq_of_lt hm, Nat.mod_eq_of_lt hn, hcmp]
    rfl

theorem emits_compareUlt (hm : m < 2 ^ w) (hn : n < 2 ^ w) (ha : Word v w a m)
    (hb : Word v w b n) :
    Emits x 1 r r v (compareUlt a b) fun v' id => Bit v' id (m < n) := by
  apply (emits_push (l := [decide (m < n)]) rfl (.cons ha (.cons hb .nil)) _).weaken
    (Nat.le_refl _)
  · intro v' id _ hid
    exact ⟨_, hid, decide_eq_true_iff⟩
  · intro i
    have hcmp : decide (compare m n = .lt) = decide (m < n) := by
      simp [Nat.compare_eq_lt]
    simp only [evalNode, opCompare, List.getD_cons_zero, List.getD_cons_succ, cmpFrom_laneOf,
      requirePair_ok (length_laneOf w m |>.trans (length_laneOf w n).symm),
      Nat.mod_eq_of_lt hm, Nat.mod_eq_of_lt hn, hcmp]
    rfl

theorem emits_equal (hm : m < 2 ^ w) (hn : n < 2 ^ w) (ha : Word v w a m) (hb : Word v w b n) :
    Emits x 1 r r v (equal a b) fun v' id => Bit v' id (m = n) := by
  apply (emits_push (l := [decide (m = n)]) rfl (.cons ha (.cons hb .nil)) _).weaken
    (Nat.le_refl _)
  · intro v' id _ hid
    exact ⟨_, hid, decide_eq_true_iff⟩
  · intro i
    simp only [evalNode, opEq, List.getD_cons_zero, List.getD_cons_succ, laneOf_eq_iff hm hn,
      requirePair_ok (length_laneOf w m |>.trans (length_laneOf w n).symm)]
    rfl

theorem emits_bitsetSubset (ha : Word v w a m) (hb : Word v w b n) :
    Emits x 1 r r v (bitsetSubset a b) fun v' id =>
      Bit v' id (∀ k < w, m.testBit k = true → n.testBit k = true) := by
  apply (emits_push (l := [decide (∀ k < w, m.testBit k = true → n.testBit k = true)]) rfl
    (.cons ha (.cons hb .nil)) _).weaken (Nat.le_refl _)
  · intro v' id _ hid
    exact ⟨_, hid, decide_eq_true_iff⟩
  · intro i
    simp only [evalNode, opSubset, List.getD_cons_zero, List.getD_cons_succ, subset_laneOf,
      requirePair_ok (length_laneOf w m |>.trans (length_laneOf w n).symm)]
    rfl

theorem emits_bitsetIntersection (ha : Word v width.bits a m) (hb : Word v width.bits b n) :
    Emits x 1 r r v (bitsetIntersection a b width) fun v' id =>
      Word v' width.bits id (m &&& n) := by
  apply emits_push rfl (.cons ha (.cons hb .nil))
  intro i
  simp only [evalNode, opIntersection, List.getD_cons_zero, List.getD_cons_succ,
    intersection_laneOf, length_laneOf,
    requirePair_ok (length_laneOf width.bits m |>.trans (length_laneOf width.bits n).symm)]
  change requireWidth i width.bits width.bits _ = _
  rw [requireWidth, if_pos rfl]

theorem emits_and (ha : Bit v a P) (hb : Bit v b Q) :
    Emits x 1 r r v (and a b) fun v' id => Bit v' id (P ∧ Q) := by
  obtain ⟨p, hp, hP⟩ := ha
  obtain ⟨q, hq, hQ⟩ := hb
  apply (emits_push (l := [p && q]) rfl (.cons hp (.cons hq .nil)) fun _ => rfl).weaken
    (Nat.le_refl _)
  intro v' id _ hid
  exact ⟨_, hid, by rw [Bool.and_eq_true, hP, hQ]⟩

theorem emits_or (ha : Bit v a P) (hb : Bit v b Q) :
    Emits x 1 r r v (or a b) fun v' id => Bit v' id (P ∨ Q) := by
  obtain ⟨p, hp, hP⟩ := ha
  obtain ⟨q, hq, hQ⟩ := hb
  apply (emits_push (l := [p || q]) rfl (.cons hp (.cons hq .nil)) fun _ => rfl).weaken
    (Nat.le_refl _)
  intro v' id _ hid
  exact ⟨_, hid, by rw [Bool.or_eq_true, hP, hQ]⟩

theorem emits_not (ha : Bit v a P) :
    Emits x 1 r r v (not a) fun v' id => Bit v' id (¬P) := by
  obtain ⟨p, hp, hP⟩ := ha
  apply (emits_push (l := [!p]) rfl (.cons hp .nil) fun _ => rfl).weaken (Nat.le_refl _)
  intro v' id _ hid
  exact ⟨_, hid, by rw [← hP]; simp⟩

theorem emits_select {cond : NodeId} {p : Bool} (hcond : Holds v cond [p])
    (ha : Word v width.bits a m) (hb : Word v width.bits b n) :
    Emits x 1 r r v (select cond a b width) fun v' id =>
      Word v' width.bits id (if p then m else n) := by
  apply emits_push rfl (.cons hcond (.cons ha (.cons hb .nil)))
  intro i
  simp only [evalNode, opSelect, List.getD_cons_zero, List.getD_cons_succ,
    requirePair_ok (length_laneOf width.bits m |>.trans (length_laneOf width.bits n).symm)]
  change requireWidth i width.bits (laneOf width.bits m).length _ = _
  rw [requireWidth, if_pos (length_laneOf _ _).symm]
  cases p with
  | true => rfl
  | false => rfl

end Nodes

/-! ### Reductions -/

section Reductions

variable {α : Type} {x v r : List Lane} {c : Nat} {P : α → Prop}

theorem reduceFuel_halves {unit : BitVec 8} {combine : NodeId → NodeId → Build NodeId} {fuel : Nat}
    {items : List NodeId} (h : 2 ≤ items.length) :
    reduceFuel unit combine (fuel + 1) items = (do
      let l ← reduceFuel unit combine fuel (items.take (items.length / 2))
      let r ← reduceFuel unit combine fuel (items.drop (items.length / 2))
      combine l r) := by
  match items, h with
  | _ :: _ :: _, _ => rfl

/-- Reducing by halves, for a way to combine two bits that agrees with a property of lists
splitting over appends. -/
theorem emits_reduceFuel (all : List α → Prop) {unit : BitVec 8}
    {combine : NodeId → NodeId → Build NodeId} (hone : ∀ a, all [a] ↔ P a)
    (hcombine : ∀ {v : List Lane} {l l' : NodeId} {xs ys : List α}, Bit v l (all xs) →
      Bit v l' (all ys) → Emits x 1 r r v (combine l l') fun v' id => Bit v' id (all (xs ++ ys)))
    {fuel : Nat} {items : List NodeId} {xs : List α} (hfuel : items.length ≤ fuel)
    (hpos : 1 ≤ items.length) (hitems : List.Forall₂ (fun a id => Bit v id (P a)) xs items) :
    Emits x (items.length - 1) r r v (reduceFuel unit combine fuel items) fun v' id =>
      Bit v' id (all xs) := by
  induction fuel generalizing v items xs with
  | zero => omega
  | succ fuel ih =>
      by_cases hlength : 2 ≤ items.length
      · rw [reduceFuel_halves hlength]
        generalize hhalf : items.length / 2 = half
        have htake : (items.take half).length = half := by
          rw [List.length_take]
          omega
        have hdrop : (items.drop half).length = items.length - half := List.length_drop
        have hcost : (items.take half).length - 1 + ((items.drop half).length - 1 + 1) =
            items.length - 1 := by omega
        rw [← hcost, ← List.take_append_drop half xs]
        apply (ih (by omega) (by omega) (List.forall₂_take half hitems)).bind
        intro v₁ left hext hleft
        have hlater := (List.forall₂_drop half hitems).imp fun _ _ h => Bit.mono h hext
        apply (ih (by omega) (by omega) hlater).bind
        intro v₂ right hext' hright
        exact hcombine (hleft.mono hext') hright
      · match items, hitems, hpos, hlength with
        | [only], .cons hbit .nil, _, _ => exact Emits.pure (hbit.congr (hone _).symm)
        | _ :: _ :: rest, _, _, hlength =>
            exact absurd (Nat.le_add_left 2 rest.length) hlength

theorem emits_andReduce {items : List NodeId} {xs : List α}
    (hitems : List.Forall₂ (fun a id => Bit v id (P a)) xs items) :
    Emits x (xs.length + 1) r r v (andReduce items) fun v' id => Bit v' id (∀ a ∈ xs, P a) := by
  have hlength := hitems.length_eq
  cases items with
  | nil =>
      cases hitems
      apply (@emits_byte _ _ _ _ .one (by decide)).weaken (Nat.le_add_left _ _)
      intro v' id _ hid
      exact ⟨true, hid, by simp⟩
  | cons first rest =>
      apply (emits_reduceFuel (fun xs => ∀ a ∈ xs, P a) (by simp) _ (Nat.le_refl _)
        (Nat.le_add_left _ _) hitems).cost (by omega)
      intro v l l' xs ys hl hl'
      apply (emits_and hl hl').weaken (Nat.le_refl _)
      intro v' id _ hid
      exact hid.congr List.forall_mem_append.symm

theorem emits_orReduce {items : List NodeId} {xs : List α}
    (hitems : List.Forall₂ (fun a id => Bit v id (P a)) xs items) :
    Emits x (xs.length + 1) r r v (orReduce items) fun v' id => Bit v' id (∃ a ∈ xs, P a) := by
  have hlength := hitems.length_eq
  cases items with
  | nil =>
      cases hitems
      apply (@emits_byte _ _ _ _ .one (by decide)).weaken (Nat.le_add_left _ _)
      intro v' id _ hid
      exact ⟨false, hid, by simp⟩
  | cons first rest =>
      apply (emits_reduceFuel (fun xs => ∃ a ∈ xs, P a) (by simp) _ (Nat.le_refl _)
        (Nat.le_add_left _ _) hitems).cost (by omega)
      intro v l l' xs ys hl hl'
      apply (emits_or hl hl').weaken (Nat.le_refl _)
      intro v' id _ hid
      exact hid.congr (by simp [or_and_right, exists_or])

/-- A conjunction of checks, one for each element of a list that is described by another. -/
theorem emits_collectAll₂ {ι : Type} {f : ι → Build NodeId} (R : List Lane → ι → α → Prop)
    (hR : ∀ {v v' : List Lane} {i : ι} {a : α}, v <+: v' → R v i a → R v' i a)
    {items : List ι} {xs : List α} (hrel : List.Forall₂ (R v) items xs)
    (h : ∀ i, ∀ a ∈ xs, ∀ v', v <+: v' → R v' i a →
      Emits x c r r v' (f i) fun v'' id => Bit v'' id (P a)) :
    Emits x (xs.length * c + (xs.length + 1)) r r v
      (do
        let bits ← collect f items
        andReduce bits) fun v' id => Bit v' id (∀ a ∈ xs, P a) := by
  apply (emits_collect₂ R (fun a v' id => Bit v' id (P a)) hR
    (fun _ _ _ _ hext hbit => Bit.mono hbit hext) hrel h).bind
  intro v' bits _ hbits
  exact emits_andReduce hbits

/-- A conjunction over a list of checks. -/
theorem emits_collectAll {f : α → Build NodeId} {xs : List α}
    (h : ∀ a ∈ xs, ∀ v', v <+: v' → Emits x c r r v' (f a) fun v'' id => Bit v'' id (P a)) :
    Emits x (xs.length * c + (xs.length + 1)) r r v
      (do
        let bits ← collect f xs
        andReduce bits) fun v' id => Bit v' id (∀ a ∈ xs, P a) := by
  apply (emits_collect (fun a v' id => Bit v' id (P a))
    (fun _ _ _ _ hext hbit => Bit.mono hbit hext) h).bind
  intro v' bits _ hbits
  exact emits_andReduce hbits

end Reductions

end Batpak.Bvisor
