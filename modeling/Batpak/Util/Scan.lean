/-
Module: Batpak.Util.Scan
Purpose: Scanning a list with a state that is carried along, collecting what each element
  yields, until an element fails.
Trusted boundary: none
Main exports: scan, scan_invariant
-/
import Mathlib.Data.List.Forall2

namespace Batpak.Util

variable {ε σ α β γ : Type}
variable {g : α → Except ε β} {xs : List α} {x : Except ε α}

/-- Put earlier yields in front of the rest of a scan. -/
def yieldFirst (found : List β) : Except ε (σ × List β) → Except ε (σ × List β)
  | .error e => .error e
  | .ok (s, more) => .ok (s, found ++ more)

@[simp] theorem yieldFirst_error (found : List β) (e : ε) :
    yieldFirst found (.error e : Except ε (σ × List β)) = .error e := rfl

@[simp] theorem yieldFirst_ok (found more : List β) (s : σ) :
    yieldFirst found (.ok (s, more) : Except ε (σ × List β)) = .ok (s, found ++ more) := rfl

@[simp] theorem yieldFirst_nil (r : Except ε (σ × List β)) : yieldFirst [] r = r := by
  cases r with
  | error e => rfl
  | ok p => rfl

theorem yieldFirst_append (xs ys : List β) (r : Except ε (σ × List β)) :
    yieldFirst (xs ++ ys) r = yieldFirst xs (yieldFirst ys r) := by
  cases r with
  | error e => rfl
  | ok p => simp only [yieldFirst, List.append_assoc]

/-- Feed the elements to `f` one after another; the yields are concatenated. -/
def scan (f : α → σ → Except ε (σ × List β)) : List α → σ → Except ε (σ × List β)
  | [], s => .ok (s, [])
  | x :: xs, s =>
      match f x s with
      | .error e => .error e
      | .ok (s', found) => yieldFirst found (scan f xs s')

variable {f : α → σ → Except ε (σ × List β)}

@[simp] theorem scan_nil (s : σ) : scan f [] s = .ok (s, []) := rfl

/-- A scan that got through the first part continues on the second. -/
theorem scan_append_ok {xs ys : List α} {s s' : σ} {found : List β}
    (h : scan f xs s = .ok (s', found)) :
    scan f (xs ++ ys) s = yieldFirst found (scan f ys s') := by
  induction xs generalizing s found with
  | nil =>
      cases h
      exact (yieldFirst_nil _).symm
  | cons x xs ih =>
      rw [scan] at h
      rw [List.cons_append, scan]
      cases hx : f x s with
      | error e =>
          rw [hx] at h
          cases h
      | ok p =>
          obtain ⟨s₁, found₁⟩ := p
          rw [hx] at h
          simp only at h ⊢
          cases hxs : scan f xs s₁ with
          | error e =>
              rw [hxs] at h
              cases h
          | ok q =>
              obtain ⟨s₂, found₂⟩ := q
              rw [hxs] at h
              cases h
              rw [ih hxs, yieldFirst_append]

theorem scan_append_error {xs ys : List α} {s : σ} {e : ε}
    (h : scan f xs s = .error e) : scan f (xs ++ ys) s = .error e := by
  induction xs generalizing s with
  | nil => cases h
  | cons x xs ih =>
      rw [scan] at h
      rw [List.cons_append, scan]
      cases hx : f x s with
      | error e' =>
          rw [hx] at h
          exact h
      | ok p =>
          obtain ⟨s₁, found₁⟩ := p
          rw [hx] at h
          simp only at h ⊢
          cases hxs : scan f xs s₁ with
          | error e' =>
              rw [hxs] at h
              cases h
              rw [ih hxs, yieldFirst_error]
          | ok q =>
              rw [hxs] at h
              cases h

/-- Scanning blocks, each of which is itself scanned element by element, is scanning all
their elements. -/
theorem scan_flatMap {g : γ → σ → Except ε (σ × List β)} {elements : γ → List α}
    (blocks : List γ) (h : ∀ b ∈ blocks, ∀ s, g b s = scan f (elements b) s) (s : σ) :
    scan g blocks s = scan f (blocks.flatMap elements) s := by
  induction blocks generalizing s with
  | nil => rfl
  | cons b rest ih =>
      have hrest : ∀ b' ∈ rest, ∀ s, g b' s = scan f (elements b') s :=
        fun b' hb' => h b' (List.mem_cons_of_mem _ hb')
      rw [scan, List.flatMap_cons, h b List.mem_cons_self s]
      cases hb : scan f (elements b) s with
      | error e => rw [scan_append_error hb]
      | ok p =>
          obtain ⟨s', found⟩ := p
          rw [scan_append_ok hb]
          simp only
          rw [ih hrest s']

/-- What each element keeps of the state and guarantees of its yields, a scan that got
through keeps and guarantees. -/
theorem scan_invariant {I : σ → Prop} {P : β → Prop}
    (h : ∀ x ∈ xs, ∀ s s' found, I s → f x s = .ok (s', found) → I s' ∧ ∀ y ∈ found, P y)
    {s s' : σ} {found : List β} (hs : I s) (hscan : scan f xs s = .ok (s', found)) :
    I s' ∧ ∀ y ∈ found, P y := by
  induction xs generalizing s found with
  | nil =>
      cases hscan
      exact ⟨hs, fun y hy => by cases hy⟩
  | cons x xs ih =>
      rw [scan] at hscan
      cases hx : f x s with
      | error e =>
          rw [hx] at hscan
          cases hscan
      | ok p =>
          obtain ⟨s₁, found₁⟩ := p
          rw [hx] at hscan
          obtain ⟨hs₁, hfound₁⟩ := h x List.mem_cons_self s s₁ found₁ hs hx
          simp only at hscan
          cases hxs : scan f xs s₁ with
          | error e =>
              rw [hxs] at hscan
              cases hscan
          | ok q =>
              obtain ⟨s₂, found₂⟩ := q
              rw [hxs] at hscan
              cases hscan
              obtain ⟨hs₂, hfound₂⟩ :=
                ih (fun y hy => h y (List.mem_cons_of_mem _ hy)) hs₁ hxs
              refine ⟨hs₂, fun y hy => ?_⟩
              rcases List.mem_append.mp hy with hy | hy
              · exact hfound₁ y hy
              · exact hfound₂ y hy

/-! ### Fallible computations that succeed -/

theorem bindOk_iff {b : β} :
    (x >>= g) = .ok b ↔ ∃ a, x = .ok a ∧ g a = .ok b := by
  cases x with
  | error e => simp [bind, Except.bind]
  | ok a => simp [bind, Except.bind]

theorem bindError_iff {e : ε} :
    (x >>= g) = .error e ↔ x = .error e ∨ ∃ a, x = .ok a ∧ g a = .error e := by
  cases x with
  | error e' => simp [bind, Except.bind]
  | ok a => simp [bind, Except.bind]

/-- A computation succeeds when its first step does and the rest goes on from there. -/
theorem exists_bindOk {a : α} (h : x = .ok a)
    (hrest : ∃ b, g a = .ok b) : ∃ b, (x >>= g) = .ok b := by
  obtain ⟨b, hb⟩ := hrest
  exact ⟨b, bindOk_iff.mpr ⟨a, h, hb⟩⟩

theorem isOk_iff : x.isOk = true ↔ ∃ a, x = .ok a := by
  cases x with
  | error e => simp [Except.isOk, Except.toBool]
  | ok a => simp [Except.isOk, Except.toBool]

theorem mapOk_iff {g : α → β} {b : β} :
    x.map g = .ok b ↔ ∃ a, x = .ok a ∧ g a = b := by
  cases x with
  | error e => simp [Except.map]
  | ok a => simp [Except.map]

theorem mapError_ok_iff {ε' : Type} {f : ε → ε'} {a : α} :
    x.mapError f = .ok a ↔ x = .ok a := by
  cases x with
  | error e => simp [Except.mapError]
  | ok b => simp [Except.mapError]

/-- A computation behind a guard that refuses. -/
theorem ifError_ok_iff {p : Prop} [Decidable p] {e : ε} {a : α} :
    (if p then .error e else x) = .ok a ↔ ¬ p ∧ x = .ok a := by
  by_cases hp : p
  · simp [hp]
  · simp [hp]

/-- A fold that succeeds reaches its last element with the rest done. -/
theorem foldlM_concat_ok_iff {g : σ → α → Except ε σ} {x : α} {s t : σ} :
    (xs ++ [x]).foldlM g s = .ok t ↔ ∃ m, xs.foldlM g s = .ok m ∧ g m x = .ok t := by
  have hlast : ∀ m, [x].foldlM g m = g m x := by
    intro m
    cases h : g m x with
    | error e => simp [List.foldlM, h, bind, Except.bind]
    | ok r => simp [List.foldlM, h, bind, Except.bind, pure, Except.pure]
  simp only [List.foldlM_append, bindOk_iff, hlast]

theorem forall_ok_of_error (e : ε) (p : α → Prop) :
    ∀ a, (.error e : Except ε α) = .ok a → p a := by
  intro a h
  cases h

theorem forall_ok_iff (b : α) (p : α → Prop) :
    p b ↔ ∀ a, (.ok b : Except ε α) = .ok a → p a := by
  constructor
  · intro hb a h
    cases h
    exact hb
  · intro h
    exact h b rfl

instance decidableForallOk (r : Except ε α) (p : α → Prop) [DecidablePred p] :
    Decidable (∀ a, r = .ok a → p a) :=
  match r with
  | .error e => .isTrue (forall_ok_of_error e p)
  | .ok b => decidable_of_iff (p b) (forall_ok_iff b p)

/-- A fallible map that succeeds answers every element by its own result. -/
theorem forall₂_of_mapM_ok {ys : List β}
    (h : xs.mapM g = .ok ys) : List.Forall₂ (fun x y => g x = .ok y) xs ys := by
  induction xs generalizing ys with
  | nil =>
      cases h
      exact .nil
  | cons x xs ih =>
      rw [List.mapM_cons] at h
      cases hx : g x with
      | error e =>
          rw [hx] at h
          cases h
      | ok y =>
          cases hxs : xs.mapM g with
          | error e =>
              rw [hx, hxs] at h
              cases h
          | ok rest =>
              rw [hx, hxs] at h
              cases h
              exact .cons hx (ih hxs)

/-- A map that succeeds everywhere and keeps a measure of each element keeps it of all. -/
theorem mapM_ok_of_forall {γ : Type} {m : α → γ} {m' : β → γ}
    (h : ∀ x ∈ xs, ∃ y, g x = .ok y ∧ m' y = m x) :
    ∃ ys, xs.mapM g = .ok ys ∧ ys.map m' = xs.map m := by
  induction xs with
  | nil => exact ⟨[], rfl, rfl⟩
  | cons x rest ih =>
      obtain ⟨y, hy, hm⟩ := h x List.mem_cons_self
      obtain ⟨ys, hys, hms⟩ := ih fun x' hx' => h x' (List.mem_cons_of_mem _ hx')
      refine ⟨y :: ys, ?_, ?_⟩
      · rw [List.mapM_cons, hy, hys]
        rfl
      · rw [List.map_cons, List.map_cons, hm, hms]

theorem mem_of_mapM_ok {ys : List β}
    (h : xs.mapM g = .ok ys) {y : β} (hy : y ∈ ys) : ∃ x ∈ xs, g x = .ok y := by
  have hall := forall₂_of_mapM_ok h
  clear h
  induction hall with
  | nil => cases hy
  | cons hx _ ih =>
      rcases List.mem_cons.mp hy with rfl | hy
      · exact ⟨_, List.mem_cons_self, hx⟩
      · obtain ⟨x, hmem, hx⟩ := ih hy
        exact ⟨x, List.mem_cons_of_mem _ hmem, hx⟩

/-- Only the elements of the list matter. -/
theorem mapM_congr_mem {g k : α → Except ε β} (h : ∀ x ∈ xs, g x = k x) :
    xs.mapM g = xs.mapM k := by
  induction xs with
  | nil => rfl
  | cons x xs ih =>
      rw [List.mapM_cons, List.mapM_cons, h x List.mem_cons_self,
        ih fun y hy => h y (List.mem_cons_of_mem x hy)]

/-- A fallible map succeeds exactly when it does on every element. -/
theorem exists_mapM_ok_iff :
    (∃ ys, xs.mapM g = .ok ys) ↔ ∀ x ∈ xs, ∃ y, g x = .ok y := by
  constructor
  · rintro ⟨ys, h⟩ x hx
    have hall := forall₂_of_mapM_ok h
    clear h
    induction hall with
    | nil => cases hx
    | cons hfirst _ ih =>
        rcases List.mem_cons.mp hx with rfl | hx
        · exact ⟨_, hfirst⟩
        · exact ih hx
  · intro h
    have hkept : ∀ x ∈ xs, ∃ y, g x = .ok y ∧ (fun _ : β => ()) y = (fun _ : α => ()) x :=
      fun x hx => (h x hx).imp fun y hy => ⟨hy, rfl⟩
    obtain ⟨ys, hys, -⟩ := mapM_ok_of_forall hkept
    exact ⟨ys, hys⟩

/-- What the map keeps of each element, it keeps of all. -/
theorem map_eq_of_mapM_ok_mem {m : α → γ} {m' : β → γ}
    {ys : List β} (h : xs.mapM g = .ok ys) (hkeeps : ∀ x ∈ xs, ∀ y, g x = .ok y → m' y = m x) :
    ys.map m' = xs.map m := by
  have hall := forall₂_of_mapM_ok h
  clear h
  induction hall with
  | nil => rfl
  | cons hfirst _ ih =>
      rw [List.map_cons, List.map_cons, hkeeps _ List.mem_cons_self _ hfirst,
        ih fun x hx => hkeeps x (List.mem_cons_of_mem _ hx)]

theorem map_eq_of_mapM_ok {m : α → γ} {m' : β → γ}
    {ys : List β} (h : xs.mapM g = .ok ys) (hkeeps : ∀ x y, g x = .ok y → m' y = m x) :
    ys.map m' = xs.map m :=
  map_eq_of_mapM_ok_mem h fun x _ => hkeeps x

/-- Lists that every element and its result name alike, all of them together do. -/
theorem flatMap_eq_of_mapM_ok {δ δ' : Type} {ys : List β}
    {items : β → List δ} {items' : α → List δ'} {name : δ → γ} {name' : δ' → γ}
    (h : xs.mapM g = .ok ys)
    (hkeeps : ∀ x y, g x = .ok y → (items y).map name = (items' x).map name') :
    (ys.flatMap items).map name = (xs.flatMap items').map name' := by
  rw [List.map_flatMap, List.map_flatMap, List.flatMap_def, List.flatMap_def,
    map_eq_of_mapM_ok h hkeeps]

/-- On the elements in another order, the results come in another order. -/
theorem mapM_ok_of_perm {xs xs' : List α} {ys : List β} (hperm : xs.Perm xs')
    (h : xs.mapM g = .ok ys) : ∃ ys', xs'.mapM g = .ok ys' ∧ ys.Perm ys' := by
  have hsome : ∀ x ∈ xs, ∃ y, g x = .ok y := exists_mapM_ok_iff.mp ⟨ys, h⟩
  obtain ⟨ys', h'⟩ := exists_mapM_ok_iff.mpr fun x hx => hsome x (hperm.mem_iff.mpr hx)
  refine ⟨ys', h', ?_⟩
  have hresult : ∀ x y, g x = .ok y → some y = (g x).toOption := by
    intro x y hy
    rw [hy]
    rfl
  have himage : ys.map some = xs.map fun x => (g x).toOption := map_eq_of_mapM_ok h hresult
  have himage' : ys'.map some = xs'.map fun x => (g x).toOption := map_eq_of_mapM_ok h' hresult
  have hoptions : (ys.map some).Perm (ys'.map some) := by
    rw [himage, himage']
    exact hperm.map _
  have hresults := hoptions.filterMap id
  simpa using hresults

theorem forM_ok_iff {g : α → Except ε Unit} :
    xs.forM g = .ok () ↔ ∀ x ∈ xs, g x = .ok () := by
  induction xs with
  | nil => simp [pure, Except.pure]
  | cons x rest ih =>
      have hcons : (x :: rest).forM g = (g x >>= fun _ => rest.forM g) := rfl
      rw [hcons, bindOk_iff]
      constructor
      · rintro ⟨⟨⟩, hx, hrest⟩ y hy
        rcases List.mem_cons.mp hy with rfl | hy
        · exact hx
        · exact ih.mp hrest y hy
      · intro h
        exact ⟨(), h x List.mem_cons_self, ih.mpr fun y hy => h y (List.mem_cons_of_mem _ hy)⟩

end Batpak.Util
