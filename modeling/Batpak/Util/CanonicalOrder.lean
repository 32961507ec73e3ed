/-
Module: Batpak.Util.CanonicalOrder
Purpose: Orders of a set with prerequisites in which every step takes the ready element of least
  key: there is at most one, and it is the least such order.
Trusted boundary: none
Main exports: Ready, CanonicalFrom
-/
import Mathlib

namespace Batpak.Util

variable {α β κ μ π : Type*}

/-- Everything an element needs has been placed. -/
def Ready (needs : α → α → Prop) (placed : List α) (a : α) : Prop :=
  ∀ r, needs a r → r ∈ placed

/-- After `placed`, each step of the order takes a ready element, and no ready element of
smaller key is left for later. -/
def CanonicalFrom [LT κ] (needs : α → α → Prop) (key : α → κ) : List α → List α → Prop
  | _, [] => True
  | placed, a :: rest =>
      Ready needs placed a ∧ (∀ q ∈ rest, Ready needs placed q → ¬key q < key a) ∧
        CanonicalFrom needs key (a :: placed) rest

/-- After `placed`, every element comes behind everything it needs. -/
def ServedFrom (needs : α → α → Prop) : List α → List α → Prop
  | _, [] => True
  | placed, a :: rest => Ready needs placed a ∧ ServedFrom needs (a :: placed) rest

section Basics

variable {needs : α → α → Prop} {key : α → κ} {placed placed' order : List α}

theorem Ready.congr (h : ∀ a, a ∈ placed ↔ a ∈ placed') {a : α} :
    Ready needs placed a ↔ Ready needs placed' a := by
  constructor
  · intro hready r hr
    exact (h r).mp (hready r hr)
  · intro hready r hr
    exact (h r).mpr (hready r hr)

theorem CanonicalFrom.congr [LT κ] (h : ∀ a, a ∈ placed ↔ a ∈ placed')
    (hcanonical : CanonicalFrom needs key placed order) :
    CanonicalFrom needs key placed' order := by
  induction order generalizing placed placed' with
  | nil => trivial
  | cons a rest ih =>
      obtain ⟨hready, hleast, hrest⟩ := hcanonical
      refine ⟨(Ready.congr h).mp hready, ?_, ?_⟩
      · intro q hq hqready
        exact hleast q hq ((Ready.congr h).mpr hqready)
      · apply ih _ hrest
        intro x
        rw [List.mem_cons, List.mem_cons, h]

/-- The condition at every place of the order, with what comes before and after it. -/
theorem canonicalFrom_iff [LT κ] :
    CanonicalFrom needs key placed order ↔
      ∀ i a, order[i]? = some a →
        Ready needs (placed ++ order.take i) a ∧
          ∀ q ∈ order.drop (i + 1), Ready needs (placed ++ order.take i) q → ¬key q < key a := by
  induction order generalizing placed with
  | nil =>
      constructor
      · intro _ i a h
        simp at h
      · intro _
        trivial
  | cons b rest ih =>
      have hcongr : ∀ (i : Nat) (x : α),
          x ∈ (b :: placed) ++ rest.take i ↔ x ∈ placed ++ (b :: rest).take (i + 1) := by
        intro i x
        simp only [List.take_succ_cons, List.mem_append, List.mem_cons]
        tauto
      constructor
      · rintro ⟨hready, hleast, hrest⟩ i a ha
        cases i with
        | zero =>
            cases ha
            rw [List.take_zero, List.append_nil]
            exact ⟨hready, hleast⟩
        | succ i =>
            obtain ⟨ha, hafter⟩ := ih.mp hrest i a ha
            refine ⟨(Ready.congr (hcongr i)).mp ha, ?_⟩
            intro q hq hqready
            exact hafter q hq ((Ready.congr (hcongr i)).mpr hqready)
      · intro h
        have hhead := h 0 b rfl
        rw [List.take_zero, List.append_nil] at hhead
        refine ⟨hhead.1, hhead.2, ih.mpr ?_⟩
        intro i a ha
        obtain ⟨ha, hafter⟩ := h (i + 1) a ha
        refine ⟨(Ready.congr (hcongr i)).mpr ha, ?_⟩
        intro q hq hqready
        exact hafter q hq ((Ready.congr (hcongr i)).mp hqready)

/-- A set has at most one canonical order: where two of them part, each would have passed
over the ready element the other takes. -/
theorem CanonicalFrom.unique [LinearOrder κ] (hkey : Function.Injective key)
    {other : List α} (hperm : order.Perm other)
    (h : CanonicalFrom needs key placed order) (h' : CanonicalFrom needs key placed other) :
    order = other := by
  induction order generalizing placed other with
  | nil => exact hperm.nil_eq
  | cons a rest ih =>
      cases other with
      | nil => exact absurd hperm.symm.nil_eq (by simp)
      | cons b rest' =>
          obtain ⟨ha, haleast, hrest⟩ := h
          obtain ⟨hb, hbleast, hrest'⟩ := h'
          have hab : a = b := by
            by_contra hne
            have hbrest : b ∈ rest := by
              have hmem : b ∈ a :: rest := hperm.mem_iff.mpr List.mem_cons_self
              exact (List.mem_cons.mp hmem).resolve_left fun heq => hne heq.symm
            have harest : a ∈ rest' := by
              have hmem : a ∈ b :: rest' := hperm.mem_iff.mp List.mem_cons_self
              exact (List.mem_cons.mp hmem).resolve_left hne
            apply hne
            apply hkey
            apply le_antisymm
            · exact not_lt.mp (haleast b hbrest hb)
            · exact not_lt.mp (hbleast a harest ha)
          subst hab
          rw [ih (List.Perm.cons_inv hperm) hrest hrest']

/-- Renaming the elements, when the new prerequisites are the old ones renamed and the new
keys compare no differently. -/
theorem CanonicalFrom.map [LT κ] [LT μ] {needs' : β → β → Prop} {key' : β → μ} {f : α → β}
    (hneeds : ∀ a ∈ order, ∀ s, needs' (f a) s ↔ ∃ r, needs a r ∧ f r = s)
    (hinj : ∀ a ∈ order, ∀ r, needs a r → ∀ x ∈ placed ++ order, f x = f r → x = r)
    (hkey : ∀ a ∈ order, ∀ q ∈ order, key' (f q) < key' (f a) → key q < key a)
    (h : CanonicalFrom needs key placed order) :
    CanonicalFrom needs' key' (placed.map f) (order.map f) := by
  induction order generalizing placed with
  | nil => trivial
  | cons a rest ih =>
      obtain ⟨hready, hleast, hrest⟩ := h
      refine ⟨?_, ?_, ?_⟩
      · intro s hs
        obtain ⟨r, hr, rfl⟩ := (hneeds a List.mem_cons_self s).mp hs
        exact List.mem_map_of_mem (hready r hr)
      · intro s hs hsready hlt
        obtain ⟨q, hq, rfl⟩ := List.mem_map.mp hs
        have hq' := List.mem_cons_of_mem a hq
        apply hleast q hq
        · intro r hr
          have hfr := hsready (f r) ((hneeds q hq' _).mpr ⟨r, hr, rfl⟩)
          obtain ⟨x, hx, hfx⟩ := List.mem_map.mp hfr
          rw [← hinj q hq' r hr x (List.mem_append_left _ hx) hfx]
          exact hx
        · exact hkey a List.mem_cons_self q hq' hlt
      · rw [← List.map_cons]
        apply ih
        · intro b hb
          exact hneeds b (List.mem_cons_of_mem _ hb)
        · intro b hb r hr x hx
          apply hinj b (List.mem_cons_of_mem _ hb) r hr
          rcases List.mem_append.mp hx with hx | hx
          · rcases List.mem_cons.mp hx with rfl | hx
            · exact List.mem_append_right _ List.mem_cons_self
            · exact List.mem_append_left _ hx
          · exact List.mem_append_right _ (List.mem_cons_of_mem _ hx)
        · intro b hb q hq
          exact hkey b (List.mem_cons_of_mem _ hb) q (List.mem_cons_of_mem _ hq)
        · exact hrest

/-- A grading ascends along a canonical order when no element needs a higher one and a lower
grade gives a smaller key. -/
theorem CanonicalFrom.ascends [LT κ] [LinearOrder π] {grade : α → π}
    (hneeds : ∀ a ∈ order, ∀ r, needs a r → grade r ≤ grade a)
    (hkey : ∀ a ∈ order, ∀ b ∈ order, grade b < grade a → key b < key a)
    (h : CanonicalFrom needs key placed order) :
    ∀ p ∈ order.zip order.tail, grade p.1 ≤ grade p.2 := by
  induction order generalizing placed with
  | nil =>
      intro p hp
      cases hp
  | cons a rest ih =>
      cases rest with
      | nil =>
          intro p hp
          cases hp
      | cons b rest =>
          obtain ⟨-, hleast, hrest⟩ := h
          have ha : a ∈ a :: b :: rest := List.mem_cons_self
          have hb : b ∈ a :: b :: rest := List.mem_cons_of_mem _ List.mem_cons_self
          have hab : grade a ≤ grade b := by
            by_cases hready : Ready needs placed b
            · by_contra hlt
              exact hleast b List.mem_cons_self hready (hkey a ha b hb (not_le.mp hlt))
            · -- `b` became ready when `a` was placed, so it needs `a`
              obtain ⟨r, hr, hr'⟩ : ∃ r, needs b r ∧ r ∉ placed := by
                unfold Ready at hready
                push Not at hready
                exact hready
              have hra : r = a := (List.mem_cons.mp (hrest.1 r hr)).resolve_right hr'
              rw [← hra]
              exact hneeds b hb r hr
          intro p hp
          rcases List.mem_cons.mp hp with rfl | hp
          · exact hab
          · apply ih _ _ hrest p hp
            · intro c hc
              exact hneeds c (List.mem_cons_of_mem _ hc)
            · intro c hc d hd
              exact hkey c (List.mem_cons_of_mem _ hc) d (List.mem_cons_of_mem _ hd)

theorem CanonicalFrom.served [LT κ] (h : CanonicalFrom needs key placed order) :
    ServedFrom needs placed order := by
  induction order generalizing placed with
  | nil => trivial
  | cons a rest ih =>
      obtain ⟨hready, -, hrest⟩ := h
      exact ⟨hready, ih hrest⟩

/-- Where another order that serves every element parts from the canonical one, it takes an
element of greater key. -/
theorem CanonicalFrom.least [LinearOrder κ]
    (hkey : ∀ a ∈ order, ∀ b ∈ order, key a = key b → a = b) {other : List α}
    (hperm : order.Perm other) (h : CanonicalFrom needs key placed order)
    (hother : ServedFrom needs placed other) :
    order = other ∨ List.Lex (fun a b => key a < key b) order other := by
  induction order generalizing placed other with
  | nil => exact Or.inl hperm.nil_eq
  | cons a rest ih =>
      cases other with
      | nil => exact absurd hperm.symm.nil_eq (by simp)
      | cons b rest' =>
          obtain ⟨-, hleast, hrest⟩ := h
          obtain ⟨hb, hrest'⟩ := hother
          by_cases hab : a = b
          · subst hab
            have hkey' : ∀ x ∈ rest, ∀ y ∈ rest, key x = key y → x = y :=
              fun x hx y hy => hkey x (List.mem_cons_of_mem _ hx) y (List.mem_cons_of_mem _ hy)
            rcases ih hkey' (List.Perm.cons_inv hperm) hrest hrest' with hsame | hlex
            · exact Or.inl (by rw [hsame])
            · exact Or.inr (List.Lex.cons hlex)
          · have hbrest : b ∈ rest := by
              have hmem : b ∈ a :: rest := hperm.mem_iff.mpr List.mem_cons_self
              exact (List.mem_cons.mp hmem).resolve_left fun heq => hab heq.symm
            have hle : key a ≤ key b := not_lt.mp (hleast b hbrest hb)
            have hne : key a ≠ key b := fun heq =>
              hab (hkey a List.mem_cons_self b (List.mem_cons_of_mem _ hbrest) heq)
            exact Or.inr (List.Lex.rel (lt_of_le_of_ne hle hne))

/-- What is needed, directly or not, comes first: no element of a served order that is closed
under needing needs itself. -/
theorem ServedFrom.irreflexive (h : ServedFrom needs placed order) (hnodup : (placed ++ order).Nodup)
    (hplaced : ∀ a ∈ placed, ∀ r, needs a r → r ∈ placed) {a : α} (ha : a ∈ order) :
    ¬Relation.TransGen needs a a := by
  induction order generalizing placed with
  | nil => cases ha
  | cons b rest ih =>
      obtain ⟨hready, hrest⟩ := h
      have hnext : ((b :: placed) ++ rest).Nodup :=
        (List.perm_middle.nodup_iff).mp hnodup
      have hclosed : ∀ x ∈ b :: placed, ∀ r, needs x r → r ∈ b :: placed := by
        intro x hx r hr
        rcases List.mem_cons.mp hx with rfl | hx
        · exact List.mem_cons_of_mem _ (hready r hr)
        · exact List.mem_cons_of_mem _ (hplaced x hx r hr)
      rcases List.mem_cons.mp ha with rfl | ha
      · intro hcycle
        -- the first step leaves `a` for what was placed before it, and nothing leads back
        have hstays : ∀ x, Relation.TransGen needs a x → x ∈ placed := by
          intro x hx
          induction hx with
          | single hstep => exact hready _ hstep
          | tail _ hstep ihx => exact hplaced _ ihx _ hstep
        have hfresh : a ∉ placed := by
          intro hmem
          exact (List.nodup_append.mp hnodup).2.2 a hmem a List.mem_cons_self rfl
        exact hfresh (hstays a hcycle)
      · exact ih hrest hnext hclosed ha

end Basics

end Batpak.Util
