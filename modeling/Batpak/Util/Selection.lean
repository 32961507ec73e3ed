/-
Module: Batpak.Util.Selection
Purpose: Selecting the elements with the smallest keys, by one sort or by a buffer that is
  sorted and truncated past a threshold, and reading a sorted list page by page.
Trusted boundary: none
Main exports: sortByKey, trim
-/
import Mathlib

namespace Batpak.Util

variable {α : Type} {key : α → Nat} {n : Nat}

/-! ### Operations -/

/-- Stable sort by a key. -/
def sortByKey (key : α → Nat) (l : List α) : List α :=
  l.insertionSort fun a b => key a ≤ key b

/-- Sort by the key and keep the first `n`. -/
def trim (key : α → Nat) (n : Nat) (l : List α) : List α :=
  (sortByKey key l).take n

def pushTrimmed (key : α → Nat) (n threshold : Nat) (buf : List α) (a : α) : List α :=
  let buf := buf ++ [a]
  if threshold ≤ buf.length then trim key n buf else buf

/-- Push every element, trimming the buffer whenever it reaches the threshold and once more
at the end. -/
def scanTrimmed (key : α → Nat) (n threshold : Nat) (l : List α) : List α :=
  trim key n (l.foldl (pushTrimmed key n threshold) [])

theorem perm_sortByKey (key : α → Nat) (l : List α) : (sortByKey key l).Perm l :=
  List.perm_insertionSort _ l

theorem pairwise_sortByKey (key : α → Nat) (l : List α) :
    (sortByKey key l).Pairwise fun a b => key a ≤ key b := by
  have htotal : Std.Total fun a b : α => key a ≤ key b := ⟨fun a b => Nat.le_total _ _⟩
  have htrans : IsTrans α fun a b => key a ≤ key b := ⟨fun _ _ _ => Nat.le_trans⟩
  exact List.pairwise_insertionSort _ l

/-! ### Covering -/

/-- The buffer holds everything a selection of `n` smallest keys needs: below every element
that was left out there are `n` elements in the buffer. -/
def Covers (key : α → Nat) (n : Nat) (buf all : List α) : Prop :=
  ∃ left, all.Perm (buf ++ left) ∧ ∀ d ∈ left, n ≤ buf.countP fun b => key b ≤ key d

theorem covers_self (l : List α) : Covers key n l l :=
  ⟨[], by simp, by simp⟩

theorem Covers.of_perm {buf all all' : List α} (h : Covers key n buf all) (hperm : all.Perm all') :
    Covers key n buf all' := by
  obtain ⟨left, hall, hleft⟩ := h
  exact ⟨left, hperm.symm.trans hall, hleft⟩

theorem covers_push {buf all : List α} (h : Covers key n buf all) (a : α) :
    Covers key n (buf ++ [a]) (all ++ [a]) := by
  obtain ⟨left, hperm, hleft⟩ := h
  refine ⟨left, ?_, ?_⟩
  · calc (all ++ [a]).Perm ((buf ++ left) ++ [a]) := hperm.append_right [a]
      _ = buf ++ (left ++ [a]) := List.append_assoc _ _ _
      _ |>.Perm (buf ++ ([a] ++ left)) := (List.perm_append_comm).append_left buf
      _ = (buf ++ [a]) ++ left := (List.append_assoc _ _ _).symm
  · intro d hd
    rw [List.countP_append]
    exact Nat.le_add_right_of_le (hleft d hd)

/-- If some kept element exceeds a bound, so does everything sorted after it. -/
theorem le_countP_take {l : List α} (hsorted : l.Pairwise fun a b => key a ≤ key b) {bound : Nat}
    (h : n ≤ l.countP fun b => key b ≤ bound) :
    n ≤ (l.take n).countP fun b => key b ≤ bound := by
  by_cases hall : ∀ b ∈ l.take n, key b ≤ bound
  · have hcount : (l.take n).countP (fun b => key b ≤ bound) = (l.take n).length := by
      apply List.countP_eq_length.mpr
      intro b hb
      exact decide_eq_true (hall b hb)
    have hlength : n ≤ l.length := h.trans List.countP_le_length
    rw [hcount, List.length_take]
    exact le_min (Nat.le_refl n) hlength
  · simp only [not_forall] at hall
    obtain ⟨b, hb, hlarge⟩ := hall
    have hsplit : ((l.take n) ++ (l.drop n)).Pairwise fun a b => key a ≤ key b := by
      rw [List.take_append_drop]
      exact hsorted
    have hlate : (l.drop n).countP (fun b => key b ≤ bound) = 0 := by
      apply List.countP_eq_zero.mpr
      intro c hc hle
      have hbc : key b ≤ key c := (List.pairwise_append.mp hsplit).2.2 b hb c hc
      exact hlarge (hbc.trans (of_decide_eq_true hle))
    have hcount : l.countP (fun b => key b ≤ bound) =
        (l.take n).countP (fun b => key b ≤ bound) +
          (l.drop n).countP (fun b => key b ≤ bound) := by
      rw [← List.countP_append, List.take_append_drop]
    omega

theorem covers_trim {buf all : List α} (h : Covers key n buf all) :
    Covers key n (trim key n buf) all := by
  obtain ⟨left, hperm, hleft⟩ := h
  have hsorted := pairwise_sortByKey key buf
  have hsort := perm_sortByKey key buf
  refine ⟨(sortByKey key buf).drop n ++ left, ?_, ?_⟩
  · rw [← List.append_assoc, trim, List.take_append_drop]
    exact hperm.trans (hsort.symm.append_right left)
  · intro d hd
    rcases List.mem_append.mp hd with hd | hd
    · have hsplit : ((sortByKey key buf).take n ++ (sortByKey key buf).drop n).Pairwise
          fun a b => key a ≤ key b := by
        rw [List.take_append_drop]
        exact hsorted
      have hcount : (trim key n buf).countP (fun b => key b ≤ key d) =
          (trim key n buf).length := by
        apply List.countP_eq_length.mpr
        intro b hb
        exact decide_eq_true ((List.pairwise_append.mp hsplit).2.2 b hb d hd)
      have hlong : 0 < ((sortByKey key buf).drop n).length := List.length_pos_of_mem hd
      rw [List.length_drop] at hlong
      rw [hcount, trim, List.length_take]
      omega
    · apply le_countP_take hsorted
      rw [hsort.countP_eq]
      exact hleft d hd

theorem covers_foldl {threshold : Nat} (l : List α) {buf all : List α}
    (h : Covers key n buf all) :
    Covers key n (l.foldl (pushTrimmed key n threshold) buf) (all ++ l) := by
  induction l generalizing buf all with
  | nil => simpa using h
  | cons a rest ih =>
      have hpushed : Covers key n (pushTrimmed key n threshold buf a) (all ++ [a]) := by
        unfold pushTrimmed
        dsimp only
        split
        · exact covers_trim (covers_push h a)
        · exact covers_push h a
      have hrest := ih hpushed
      rwa [List.append_assoc, List.singleton_append] at hrest

/-! ### The smallest elements -/

/-- `kept` is what sorting `all` by the key and keeping the first `n` gives, up to the order
of equal keys. -/
structure Smallest (key : α → Nat) (n : Nat) (kept all : List α) : Prop where
  sorted : kept.Pairwise fun a b => key a ≤ key b
  bounded : kept.length ≤ n
  covers : Covers key n kept all

theorem smallest_trim {buf all : List α} (h : Covers key n buf all) :
    Smallest key n (trim key n buf) all where
  sorted := (pairwise_sortByKey key buf).sublist (List.take_sublist _ _)
  bounded := List.length_take_le _ _
  covers := covers_trim h

theorem smallest_scanTrimmed (threshold : Nat) (l : List α) :
    Smallest key n (scanTrimmed key n threshold l) l :=
  smallest_trim (covers_foldl l (covers_self []))

namespace Smallest

variable {kept all : List α}

theorem mem (h : Smallest key n kept all) {a : α} (ha : a ∈ kept) : a ∈ all := by
  obtain ⟨left, hperm, -⟩ := h.covers
  exact hperm.mem_iff.mpr (List.mem_append_left _ ha)

/-- Permuting the source changes nothing. -/
theorem of_perm {all' : List α} (h : Smallest key n kept all) (hperm : all.Perm all') :
    Smallest key n kept all' :=
  ⟨h.sorted, h.bounded, h.covers.of_perm hperm⟩

/-- An element that was left out has a key no smaller than any that was kept. -/
theorem mem_or_le (h : Smallest key n kept all) {a : α} (ha : a ∈ all) :
    a ∈ kept ∨ ∀ b ∈ kept, key b ≤ key a := by
  obtain ⟨left, hperm, hleft⟩ := h.covers
  rcases List.mem_append.mp (hperm.mem_iff.mp ha) with ha | ha
  · exact .inl ha
  · have hcount : kept.countP (fun b => key b ≤ key a) = kept.length :=
      Nat.le_antisymm List.countP_le_length (h.bounded.trans (hleft a ha))
    refine .inr fun b hb => ?_
    exact of_decide_eq_true (List.countP_eq_length.mp hcount b hb)

/-- With distinct keys, an element that was left out has a larger key than any kept one. -/
theorem mem_or_lt (h : Smallest key n kept all) (hkeys : (all.map key).Nodup) {a : α}
    (ha : a ∈ all) : a ∈ kept ∨ ∀ b ∈ kept, key b < key a := by
  by_cases hmem : a ∈ kept
  · exact .inl hmem
  · refine .inr fun b hb => ?_
    have hle : key b ≤ key a := ((h.mem_or_le ha).resolve_left hmem) b hb
    refine Nat.lt_of_le_of_ne hle fun heq => hmem ?_
    rwa [← List.inj_on_of_nodup_map hkeys (h.mem hb) ha heq]

theorem nodup (h : Smallest key n kept all) (hall : all.Nodup) : kept.Nodup := by
  obtain ⟨left, hperm, -⟩ := h.covers
  exact (List.nodup_append.mp (hperm.nodup hall)).1

/-- With distinct keys the selection is strictly ascending. -/
theorem strict (h : Smallest key n kept all) (hkeys : (all.map key).Nodup) :
    kept.Pairwise fun a b => key a < key b := by
  have hnodup : kept.Nodup := h.nodup (List.Nodup.of_map key hkeys)
  refine (h.sorted.and hnodup).imp_of_mem ?_
  intro a b ha hb hab
  refine Nat.lt_of_le_of_ne hab.1 fun heq => hab.2 ?_
  exact List.inj_on_of_nodup_map hkeys (h.mem ha) (h.mem hb) heq

/-- A selection of at least one element is empty only if there was nothing to select. -/
theorem eq_nil (h : Smallest key n kept all) (hn : 0 < n) (hkept : kept = []) : all = [] := by
  obtain ⟨left, hperm, hleft⟩ := h.covers
  cases left with
  | nil =>
      subst hkept
      exact List.perm_nil.mp hperm
  | cons d rest =>
      have hcount := hleft d List.mem_cons_self
      subst hkept
      rw [List.countP_nil] at hcount
      omega

end Smallest

/-! ### Stability -/

/-- Insertion behind everything with a key that is not larger. -/
def insertAfter (key : α → Nat) (a : α) : List α → List α
  | [] => [a]
  | b :: rest => if key b ≤ key a then b :: insertAfter key a rest else a :: b :: rest

/-- An earlier and a later element can be inserted in either order. -/
theorem orderedInsert_insertAfter (x a : α) (l : List α) :
    (insertAfter key a l).orderedInsert (fun a b => key a ≤ key b) x =
      insertAfter key a (l.orderedInsert (fun a b => key a ≤ key b) x) := by
  induction l with
  | nil =>
      by_cases hxa : key x ≤ key a
      · simp [insertAfter, hxa]
      · simp [insertAfter, hxa]
  | cons b rest ih =>
      by_cases hxb : key x ≤ key b
      · by_cases hba : key b ≤ key a
        · have hxa : key x ≤ key a := hxb.trans hba
          simp [insertAfter, hxb, hba, hxa]
        · by_cases hxa : key x ≤ key a
          · simp [insertAfter, hxb, hba, hxa]
          · simp [insertAfter, hxb, hba, hxa]
      · by_cases hba : key b ≤ key a
        · simp [insertAfter, hxb, hba, ih]
        · have hxa : ¬key x ≤ key a := by omega
          simp [insertAfter, hxb, hba, hxa]

/-- The last element is sorted behind its equals. -/
theorem sortByKey_concat (l : List α) (a : α) :
    sortByKey key (l ++ [a]) = insertAfter key a (sortByKey key l) := by
  induction l with
  | nil => rfl
  | cons x rest ih =>
      unfold sortByKey at ih ⊢
      rw [List.cons_append, List.insertionSort_cons, List.insertionSort_cons, ih]
      exact orderedInsert_insertAfter x a _

theorem take_insertAfter (a : α) (l : List α) :
    (insertAfter key a l).take n = (insertAfter key a (l.take n)).take n := by
  induction l generalizing n with
  | nil => simp
  | cons b rest ih =>
      cases n with
      | zero => simp
      | succ n =>
          by_cases hba : key b ≤ key a
          · simp only [insertAfter, hba, if_true, List.take_succ_cons]
            rw [ih]
          · simp only [insertAfter, hba, if_false, List.take_succ_cons]
            cases n with
            | zero => rfl
            | succ n => simp [List.take_take]

/-- What a trim keeps is all that the next trim needs. -/
theorem trim_concat (l : List α) (a : α) :
    trim key n (l ++ [a]) = (insertAfter key a (trim key n l)).take n := by
  unfold trim
  rw [sortByKey_concat, take_insertAfter]

theorem trim_trim (l : List α) : trim key n (trim key n l) = trim key n l := by
  have hsorted : (trim key n l).Pairwise fun a b => key a ≤ key b :=
    (pairwise_sortByKey key l).sublist (List.take_sublist _ _)
  have hsort : sortByKey key (trim key n l) = trim key n l := hsorted.insertionSort_eq
  have hlength : (trim key n l).length ≤ n := List.length_take_le _ _
  change (sortByKey key (trim key n l)).take n = _
  rw [hsort, List.take_of_length_le hlength]

theorem trim_pushTrimmed {threshold : Nat} {buf all : List α} (h : trim key n buf = trim key n all)
    (a : α) : trim key n (pushTrimmed key n threshold buf a) = trim key n (all ++ [a]) := by
  have hpushed : trim key n (buf ++ [a]) = trim key n (all ++ [a]) := by
    rw [trim_concat, trim_concat, h]
  unfold pushTrimmed
  dsimp only
  split
  · rw [trim_trim, hpushed]
  · exact hpushed

/-- However often the buffer is trimmed on the way, the scan gives what one sort at the end
gives. -/
theorem scanTrimmed_eq_trim (threshold : Nat) (l : List α) :
    scanTrimmed key n threshold l = trim key n l := by
  have hscan : ∀ (l buf all : List α), trim key n buf = trim key n all →
      trim key n (l.foldl (pushTrimmed key n threshold) buf) = trim key n (all ++ l) := by
    intro l
    induction l with
    | nil =>
        intro buf all h
        simpa using h
    | cons a rest ih =>
        intro buf all h
        have hrest := ih (pushTrimmed key n threshold buf a) (all ++ [a]) (trim_pushTrimmed h a)
        rwa [List.append_assoc, List.singleton_append] at hrest
  exact hscan l [] [] rfl

theorem filter_orderedInsert (p : α → Bool) (a : α) {l : List α}
    (hsorted : l.Pairwise fun a b => key a ≤ key b) :
    (l.orderedInsert (fun a b => key a ≤ key b) a).filter p =
      if p a then (l.filter p).orderedInsert (fun a b => key a ≤ key b) a else l.filter p := by
  induction l with
  | nil => cases hp : p a <;> simp [hp]
  | cons b rest ih =>
      obtain ⟨hb, hrest⟩ := List.pairwise_cons.mp hsorted
      by_cases hab : key a ≤ key b
      · have hfirst : ((b :: rest).filter p).orderedInsert (fun a b => key a ≤ key b) a =
            a :: (b :: rest).filter p := by
          cases hl : (b :: rest).filter p with
          | nil => rfl
          | cons c tail =>
              have hc : c ∈ b :: rest := by
                apply List.mem_of_mem_filter (p := p)
                rw [hl]
                exact List.mem_cons_self
              have hac : key a ≤ key c := by
                rcases List.mem_cons.mp hc with rfl | hc
                · exact hab
                · exact hab.trans (hb c hc)
              simp [hac]
        rw [hfirst, List.orderedInsert_cons_of_le (fun a b => key a ≤ key b) rest hab]
        cases hp : p a <;> simp [List.filter_cons, hp]
      · rw [List.orderedInsert_of_not_le (fun a b => key a ≤ key b) rest hab, List.filter_cons,
          ih hrest, List.filter_cons]
        cases hpb : p b with
        | true => cases hp : p a <;> simp [hab]
        | false => cases hp : p a <;> simp

/-- Filtering before or after a stable sort makes no difference. -/
theorem filter_sortByKey (p : α → Bool) (l : List α) :
    (sortByKey key l).filter p = sortByKey key (l.filter p) := by
  induction l with
  | nil => rfl
  | cons a rest ih =>
      have hinsert := filter_orderedInsert p a (pairwise_sortByKey key rest)
      have hsort : sortByKey key (a :: rest) =
          (sortByKey key rest).orderedInsert (fun a b => key a ≤ key b) a := rfl
      rw [hsort, hinsert, ih, List.filter_cons]
      cases hp : p a with
      | true => rfl
      | false => rfl

/-! ### Pages -/

/-- Strictly after the position; everything is, before the first page. -/
def isPast (position : Option Nat) (k : Nat) : Bool :=
  match position with
  | some p => p < k
  | none => true

/-- The position a page leaves: the key of its last element, if it has one. -/
def pageEnd (key : α → Nat) (position : Option Nat) (page : List α) : Option Nat :=
  (page.getLast?.map key).or position

def pageOf (key : α → Nat) (l : List α) (position : Option Nat) (limit : Nat) : List α :=
  (l.filter fun a => isPast position (key a)).take limit

/-- Read page by page, each from where the one before it ended. -/
def pagesOf (key : α → Nat) (l : List α) : Option Nat → List Nat → List (List α)
  | _, [] => []
  | position, limit :: limits =>
      let page := pageOf key l position limit
      page :: pagesOf key l (pageEnd key position page) limits

theorem isPast_trans {position : Option Nat} {k k' : Nat} (h : isPast position k = true)
    (hk : isPast (some k) k' = true) : isPast position k' = true := by
  have hlt : k < k' := of_decide_eq_true hk
  cases position with
  | none => rfl
  | some p =>
      have hp : p < k := of_decide_eq_true h
      exact decide_eq_true (hp.trans hlt)

/-- In a strictly ascending list, past an element is what stands behind it. -/
theorem filter_isPast_append {first rest : List α} {last : α}
    (hsorted : (first ++ last :: rest).Pairwise fun a b => key a < key b) :
    (first ++ last :: rest).filter (fun a => isPast (some (key last)) (key a)) = rest := by
  obtain ⟨-, htail, hcross⟩ := List.pairwise_append.mp hsorted
  obtain ⟨hlast, -⟩ := List.pairwise_cons.mp htail
  have hbefore : first.filter (fun a => isPast (some (key last)) (key a)) = [] := by
    apply List.filter_eq_nil_iff.mpr
    intro a ha hpast
    have hlt : key a < key last := hcross a ha last List.mem_cons_self
    have hgt : key last < key a := of_decide_eq_true hpast
    omega
  have hafter : rest.filter (fun a => isPast (some (key last)) (key a)) = rest := by
    apply List.filter_eq_self.mpr
    intro a ha
    exact decide_eq_true (hlast a ha)
  have hself : isPast (some (key last)) (key last) = false := decide_eq_false (Nat.lt_irrefl _)
  rw [List.filter_append, List.filter_cons, hbefore, hafter, hself]
  rfl

/-- What is left to read after a page. -/
theorem filter_pageEnd {l : List α} (hsorted : l.Pairwise fun a b => key a < key b)
    (position : Option Nat) (limit : Nat) :
    l.filter (fun a => isPast (pageEnd key position (pageOf key l position limit)) (key a)) =
      (l.filter fun a => isPast position (key a)).drop limit := by
  generalize hrest : l.filter (fun a => isPast position (key a)) = ahead
  have hpage : pageOf key l position limit = ahead.take limit := by
    unfold pageOf
    rw [hrest]
  rw [hpage]
  rcases List.eq_nil_or_concat (ahead.take limit) with hnil | ⟨first, last, hlast⟩
  · have hend : pageEnd key position (ahead.take limit) = position := by
      rw [hnil]
      rfl
    rw [hend, hrest]
    rcases List.take_eq_nil_iff.mp hnil with rfl | rfl
    · rfl
    · simp
  · rw [List.concat_eq_append] at hlast
    have hend : pageEnd key position (ahead.take limit) = some (key last) := by
      rw [hlast]
      simp [pageEnd]
    have hsplit : ahead = first ++ last :: ahead.drop limit := by
      have happend := List.take_append_drop limit ahead
      rw [hlast, List.append_assoc, List.singleton_append] at happend
      exact happend.symm
    have hahead : ahead.Pairwise fun a b => key a < key b := by
      rw [← hrest]
      exact hsorted.filter _
    have hmem : last ∈ l.filter fun a => isPast position (key a) := by
      rw [hrest, hsplit]
      exact List.mem_append_right _ List.mem_cons_self
    have hpast : isPast position (key last) = true := (List.mem_filter.mp hmem).2
    have hnarrow : l.filter (fun a => isPast (some (key last)) (key a)) =
        ahead.filter fun a => isPast (some (key last)) (key a) := by
      rw [← hrest, List.filter_filter]
      apply List.filter_congr
      intro a _
      cases hk : isPast (some (key last)) (key a) with
      | true => rw [isPast_trans hpast hk, Bool.and_true]
      | false => rfl
    rw [hend, hnarrow]
    rw [hsplit] at hahead
    nth_rewrite 1 [hsplit]
    exact filter_isPast_append hahead

/-- Pages of a strictly ascending list join to its beginning. -/
theorem flatten_pagesOf {l : List α} (hsorted : l.Pairwise fun a b => key a < key b)
    (limits : List Nat) (position : Option Nat) :
    (pagesOf key l position limits).flatten =
      (l.filter fun a => isPast position (key a)).take limits.sum := by
  induction limits generalizing position with
  | nil => simp [pagesOf]
  | cons limit rest ih =>
      have hnext := ih (pageEnd key position (pageOf key l position limit))
      rw [filter_pageEnd hsorted] at hnext
      simp only [pagesOf, List.flatten_cons, List.sum_cons]
      rw [hnext, List.take_add]
      rfl

/-- Pages of one element never repeat a key. -/
theorem pairwise_single_pages (l : List α) (count : Nat) (position : Option Nat) :
    ((pagesOf key l position (List.replicate count 1)).flatten.Pairwise
        fun a b => key a < key b) ∧
      ∀ a ∈ (pagesOf key l position (List.replicate count 1)).flatten,
        isPast position (key a) = true := by
  induction count generalizing position with
  | zero => simp [pagesOf]
  | succ count ih =>
      rw [List.replicate_succ]
      simp only [pagesOf, List.flatten_cons]
      cases hahead : l.filter fun a => isPast position (key a) with
      | nil =>
          have hpage : pageOf key l position 1 = [] := by
            unfold pageOf
            rw [hahead]
            rfl
          rw [hpage]
          exact ih position
      | cons first rest =>
          have hpage : pageOf key l position 1 = [first] := by
            unfold pageOf
            rw [hahead]
            rfl
          have hmem : first ∈ l.filter fun a => isPast position (key a) := by
            rw [hahead]
            exact List.mem_cons_self
          have hfirst : isPast position (key first) = true := (List.mem_filter.mp hmem).2
          obtain ⟨hsorted, hpast⟩ := ih (some (key first))
          rw [hpage]
          constructor
          · apply List.pairwise_cons.mpr
            exact ⟨fun a ha => of_decide_eq_true (hpast a ha), hsorted⟩
          · intro a ha
            rcases List.mem_cons.mp ha with rfl | ha
            · exact hfirst
            · exact isPast_trans hfirst (hpast a ha)

/-- If pages always join to the list, no key stands twice in it. -/
theorem nodup_of_flatten_pagesOf {l : List α}
    (h : ∀ limits, (pagesOf key l none limits).flatten = l.take limits.sum) :
    (l.map key).Nodup := by
  have hsingle := (@pairwise_single_pages α key l l.length none).1
  have hall := h (List.replicate l.length 1)
  have hsum : (List.replicate l.length 1).sum = l.length := by simp
  rw [hsum, List.take_length] at hall
  rw [hall] at hsingle
  apply List.pairwise_map.mpr
  exact hsingle.imp fun hlt => Nat.ne_of_lt hlt

end Batpak.Util
