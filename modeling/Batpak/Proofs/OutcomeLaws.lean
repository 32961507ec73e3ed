/-
Module: Batpak.Proofs.OutcomeLaws
Purpose: Outcomes with nested batches form a monad, and the two joins read the leaves of a
  list of outcomes from left to right. `join_any` also reads every empty batch as an error.
Trusted boundary: none
Main exports: joinAnyFrom_eq, flattens_iff
-/
import Batpak.Core.Outcome
import Mathlib.Logic.Basic

namespace Batpak.Core

variable {α β γ δ : Type}

/-! ### The monad laws -/

namespace Outcome

mutual
theorem andThen_ok : ∀ o : Outcome α, o.andThen .ok = o
  | .ok _ | .err _ | .retry .. | .pending .. | .cancelled _ => rfl
  | .batch items => congrArg batch (andThenItems_ok items)

theorem andThenItems_ok : ∀ items : List (Outcome α), andThenItems .ok items = items
  | [] => rfl
  | o :: items => congrArg₂ List.cons (andThen_ok o) (andThenItems_ok items)
end

mutual
theorem andThen_assoc (f : α → Outcome β) (g : β → Outcome γ) :
    ∀ o : Outcome α, (o.andThen f).andThen g = o.andThen fun a => (f a).andThen g
  | .ok _ | .err _ | .retry .. | .pending .. | .cancelled _ => rfl
  | .batch items => congrArg batch (andThenItems_assoc f g items)

theorem andThenItems_assoc (f : α → Outcome β) (g : β → Outcome γ) :
    ∀ items : List (Outcome α),
      andThenItems g (andThenItems f items) = andThenItems (fun a => (f a).andThen g) items
  | [] => rfl
  | o :: items => congrArg₂ List.cons (andThen_assoc f g o) (andThenItems_assoc f g items)
end

mutual
theorem map_eq_andThen (f : α → β) : ∀ o : Outcome α, o.map f = o.andThen fun a => .ok (f a)
  | .ok _ | .err _ | .retry .. | .pending .. | .cancelled _ => rfl
  | .batch items => congrArg batch (mapItems_eq_andThenItems f items)

theorem mapItems_eq_andThenItems (f : α → β) :
    ∀ items : List (Outcome α), mapItems f items = andThenItems (fun a => .ok (f a)) items
  | [] => rfl
  | o :: items => congrArg₂ List.cons (map_eq_andThen f o) (mapItems_eq_andThenItems f items)
end

theorem flatten_map (f : α → Outcome β) (o : Outcome α) : (o.map f).flatten = o.andThen f := by
  rw [flatten, map_eq_andThen, andThen_assoc]
  rfl

theorem map_map (f : α → β) (g : β → γ) (o : Outcome α) :
    (o.map f).map g = o.map fun a => g (f a) := by
  rw [map_eq_andThen g, map_eq_andThen f, andThen_assoc, map_eq_andThen]
  rfl

end Outcome

/-- `and_then` and `ok` satisfy the monad laws, and `map` and `flatten` are what they derive. -/
theorem outcome_monad_laws (f : α → Outcome β) (g : β → Outcome γ) (h : α → β) (k : β → δ) :
    (∀ v, (Outcome.ok v).andThen f = f v) ∧
      (∀ o : Outcome α, o.andThen .ok = o) ∧
      (∀ o : Outcome α, (o.andThen f).andThen g = o.andThen fun a => (f a).andThen g) ∧
      (∀ o : Outcome α, o.map h = o.andThen fun a => .ok (h a)) ∧
      (∀ o : Outcome α, o.map (fun a => a) = o) ∧
      (∀ o : Outcome α, (o.map h).map k = o.map fun a => k (h a)) ∧
      ∀ o : Outcome α, (o.map f).flatten = o.andThen f := by
  refine ⟨?leftIdentity, Outcome.andThen_ok, Outcome.andThen_assoc f g, Outcome.map_eq_andThen h,
    ?mapIdentity, Outcome.map_map h k, Outcome.flatten_map f⟩
  case leftIdentity =>
      intro v
      rfl
  case mapIdentity =>
      intro o
      rw [Outcome.map_eq_andThen]
      exact Outcome.andThen_ok o

/-! ### Leaves -/

mutual
/-- What is left of an outcome when the batches are opened. -/
def Outcome.leaves : Outcome α → List (Outcome α)
  | .batch items => leaves items
  | o => [o]

/-- The leaves of a list, from left to right. -/
def leaves : List (Outcome α) → List (Outcome α)
  | [] => []
  | o :: rest => o.leaves ++ leaves rest
end

mutual
/-- The leaves, with `none` where a batch is empty. -/
def Outcome.parts : Outcome α → List (Option (Outcome α))
  | .batch items => if items.isEmpty then [none] else parts items
  | o => [some o]

def parts : List (Outcome α) → List (Option (Outcome α))
  | [] => []
  | o :: rest => o.parts ++ parts rest
end

def Outcome.isBatch : Outcome α → Bool
  | .batch _ => true
  | _ => false

def Outcome.value? : Outcome α → Option α
  | .ok v => some v
  | _ => none

mutual
theorem Outcome.leaf_of_mem_leaves :
    ∀ {o leaf : Outcome α}, leaf ∈ o.leaves → leaf.isBatch = false
  | .ok _, _, h | .err _, _, h | .retry .., _, h | .pending .., _, h | .cancelled _, _, h => by
      rw [List.mem_singleton.mp h]
      rfl
  | .batch _, _, h => leaf_of_mem_leaves h

theorem leaf_of_mem_leaves :
    ∀ {os : List (Outcome α)} {leaf : Outcome α}, leaf ∈ leaves os → leaf.isBatch = false
  | _ :: _, _, h => (List.mem_append.mp h).elim Outcome.leaf_of_mem_leaves leaf_of_mem_leaves
end

/-- A list without a batch is its own list of leaves. -/
theorem leaves_of_leaf {os : List (Outcome α)} (h : ∀ o ∈ os, o.isBatch = false) :
    leaves os = os := by
  induction os with
  | nil => rfl
  | cons o rest ih =>
      have hrest : leaves rest = rest := ih fun o' ho' => h o' (List.mem_cons_of_mem _ ho')
      have ho : o.isBatch = false := h o List.mem_cons_self
      cases o with
      | batch items => cases ho
      | _ => exact congrArg _ hrest

theorem leaves_leaves (os : List (Outcome α)) : leaves (leaves os) = leaves os :=
  leaves_of_leaf fun _ => leaf_of_mem_leaves

theorem parts_of_leaf {os : List (Outcome α)} (h : ∀ o ∈ os, o.isBatch = false) :
    parts os = os.map some := by
  induction os with
  | nil => rfl
  | cons o rest ih =>
      have hrest : parts rest = rest.map some := ih fun o' ho' => h o' (List.mem_cons_of_mem _ ho')
      have ho : o.isBatch = false := h o List.mem_cons_self
      cases o with
      | batch items => cases ho
      | _ => exact congrArg _ hrest

mutual
theorem Outcome.reduceOption_parts : ∀ o : Outcome α, o.parts.filterMap (fun p => p) = o.leaves
  | .ok _ | .err _ | .retry .. | .pending .. | .cancelled _ => rfl
  | .batch [] => rfl
  | .batch (o :: rest) => reduceOption_parts (o :: rest)

theorem reduceOption_parts :
    ∀ os : List (Outcome α), (parts os).filterMap (fun p => p) = leaves os
  | [] => rfl
  | o :: rest => by
      rw [parts, List.filterMap_append, Outcome.reduceOption_parts o, reduceOption_parts rest]
      rfl
end

/-! ### Reading a list of outcomes -/

/-- The first leaf that is not `Ok`, or all values. -/
def allOf (results : List α) (ls : List (Outcome α)) : Outcome (List α) :=
  match ls.find? fun leaf => !leaf.isOk with
  | some leaf => leaf.map fun v => [v]
  | none => .ok (results ++ ls.filterMap Outcome.value?)

/-- The first leaf that is not `Err`, or the last error. -/
def anyOf (lastErr : Option OutcomeError) (ls : List (Outcome α)) : Outcome α :=
  match ls.find? fun leaf => !leaf.isErr with
  | some leaf => leaf
  | none => (ls.getLast?).getD (.err (lastErr.getD emptyVecError))

theorem allOf_ne_batch {results : List α} {ls : List (Outcome α)} {items : List (Outcome (List α))}
    (h : ∀ leaf ∈ ls, leaf.isBatch = false) : allOf results ls ≠ .batch items := by
  unfold allOf
  cases hfind : ls.find? fun leaf => !leaf.isOk with
  | none => nofun
  | some leaf =>
      have hleaf : leaf.isBatch = false := h leaf (List.mem_of_find?_eq_some hfind)
      cases leaf with
      | batch items => cases hleaf
      | _ => nofun

/-- The values of a stretch without a failure are carried into what follows. -/
theorem allOf_append (results : List α) (before rest : List (Outcome α)) :
    allOf results (before ++ rest) =
      match before.find? fun leaf => !leaf.isOk with
      | some leaf => leaf.map fun v => [v]
      | none => allOf (results ++ before.filterMap Outcome.value?) rest := by
  unfold allOf
  rw [List.find?_append, List.filterMap_append, ← List.append_assoc]
  cases before.find? fun leaf => !leaf.isOk with
  | none => rfl
  | some leaf => rfl

/-- The loop of `join_all` reads the leaves. -/
theorem joinAllFrom_eq : ∀ (results : List α) (os : List (Outcome α)),
    joinAllFrom results os = allOf results (leaves os)
  | results, [] => by simp [joinAllFrom, allOf, leaves]
  | results, .ok v :: rest => by
      rw [joinAllFrom, joinAllFrom_eq, leaves, allOf_append]
      rfl
  | results, .err _ :: rest | results, .cancelled _ :: rest | results, .retry .. :: rest
  | results, .pending .. :: rest => by
      rw [joinAllFrom, leaves, allOf_append]
      rfl
  | results, .batch inner :: rest => by
      rw [joinAllFrom, joinAllFrom_eq [] inner, leaves, Outcome.leaves, allOf_append, allOf]
      cases hfind : (leaves inner).find? fun leaf => !leaf.isOk with
      | none => exact joinAllFrom_eq _ rest
      | some leaf =>
          have hbatch : leaf.isBatch = false := leaf_of_mem_leaves (List.mem_of_find?_eq_some hfind)
          have hok : (!leaf.isOk) = true := by simpa using List.find?_some hfind
          cases leaf with
          | ok v => cases hok
          | batch items => cases hbatch
          | _ => rfl

theorem joinAll_leaves (os : List (Outcome α)) : joinAll os = joinAll (leaves os) := by
  rw [joinAll, joinAll, joinAllFrom_eq, joinAllFrom_eq, leaves_leaves]

/-- What `join_any` reads: the leaves, and an error for every empty batch. -/
def marks (ps : List (Option (Outcome α))) : List (Outcome α) :=
  ps.map fun p => p.getD (.err emptyVecError)

theorem anyOf_err (lastErr : Option OutcomeError) (e : OutcomeError) (ls : List (Outcome α)) :
    anyOf lastErr (.err e :: ls) = anyOf (some e) ls := by
  simp only [anyOf, List.find?_cons, Outcome.isErr, Bool.not_true]
  cases ls with
  | nil => rfl
  | cons leaf ls => simp [List.getLast?_cons]

theorem anyOf_other {leaf : Outcome α} (h : leaf.isErr = false) (lastErr : Option OutcomeError)
    (ls : List (Outcome α)) : anyOf lastErr (leaf :: ls) = leaf := by
  simp [anyOf, h]

/-- Errors of a stretch are carried into what follows. -/
theorem anyOf_append (e : OutcomeError) (before rest : List (Outcome α)) :
    anyOf (some e) (before ++ rest) =
      match anyOf (some e) before with
      | .err e' => anyOf (some e') rest
      | other => other := by
  induction before generalizing e with
  | nil => rfl
  | cons leaf before ih =>
      rw [List.cons_append]
      cases leaf with
      | err e' => rw [anyOf_err, anyOf_err, ih]
      | _ => rw [anyOf_other rfl, anyOf_other rfl]

theorem Outcome.parts_ne_nil : ∀ o : Outcome α, o.parts ≠ []
  | .ok _ | .err _ | .retry .. | .pending .. | .cancelled _ => by simp [Outcome.parts]
  | .batch [] => by simp [Outcome.parts]
  | .batch (o :: rest) => by
      have ho : o.parts ≠ [] := parts_ne_nil o
      simp [Outcome.parts, Batpak.Core.parts, ho]

/-- An opened batch is read as a list of its own. -/
theorem anyOf_batch (lastErr : Option OutcomeError) (inner rest : List (Outcome α)) :
    anyOf lastErr (marks (Outcome.batch inner).parts ++ rest) =
      match anyOf none (marks (parts inner)) with
      | .err e => anyOf (some e) rest
      | other => other := by
  cases inner with
  | nil => exact anyOf_err lastErr emptyVecError rest
  | cons o items =>
      have hparts : (Outcome.batch (o :: items)).parts = parts (o :: items) := by
        simp [Outcome.parts]
      rw [hparts]
      cases hps : parts (o :: items) with
      | nil =>
          rw [parts, List.append_eq_nil_iff] at hps
          exact absurd hps.1 o.parts_ne_nil
      | cons p ps =>
          rw [marks, List.map_cons, List.cons_append]
          cases p.getD (Outcome.err emptyVecError) with
          | err e => rw [anyOf_err, anyOf_err, anyOf_append]
          | _ => rw [anyOf_other rfl, anyOf_other rfl]

/-- The loop of `join_any` reads the leaves and the empty batches. -/
theorem joinAnyFrom_eq : ∀ (lastErr : Option OutcomeError) (os : List (Outcome α)),
    joinAnyFrom lastErr os = anyOf lastErr (marks (parts os))
  | some _, [] | none, [] => by
      rw [joinAnyFrom, parts]
      rfl
  | lastErr, .err e :: rest => by
      rw [joinAnyFrom, joinAnyFrom_eq, ← anyOf_err lastErr]
      rfl
  | lastErr, .ok _ :: rest | lastErr, .cancelled _ :: rest | lastErr, .retry .. :: rest
  | lastErr, .pending .. :: rest => by
      rw [joinAnyFrom]
      · exact (anyOf_other rfl lastErr _).symm
      all_goals
        intro _ hshape
        cases hshape
  | lastErr, .batch inner :: rest => by
      have hrest : ∀ e, joinAnyFrom (some e) rest = anyOf (some e) (marks (parts rest)) :=
        fun e => joinAnyFrom_eq (some e) rest
      have hparts : marks (parts (Outcome.batch inner :: rest)) =
          marks (Outcome.batch inner).parts ++ marks (parts rest) := by
        simp [parts, marks]
      rw [hparts, anyOf_batch, ← joinAnyFrom_eq none inner, joinAnyFrom]
      cases joinAnyFrom none inner with
      | err e => exact hrest e
      | _ => rfl

theorem joinAny_leaves (os : List (Outcome α)) : joinAny (leaves os) = anyOf none (leaves os) := by
  have hparts : parts (leaves os) = (leaves os).map some := parts_of_leaf fun _ => leaf_of_mem_leaves
  rw [joinAny, joinAnyFrom_eq, hparts, marks, List.map_map]
  exact congrArg _ (List.map_id _)

/-! ### Joining and flattening -/

/-- Joins see nothing of the nesting. -/
structure Flattens (os : List (Outcome α)) : Prop where
  allLeaves : joinAll os = joinAll (leaves os)
  allDecides : joinAll os = allOf [] (leaves os)
  allInner : ∀ inner items, joinAll (α := α) inner ≠ .batch items
  anyLeaves : joinAny os = joinAny (leaves os)
  anyDecides : joinAny os = anyOf none (leaves os)

theorem find?_marks (ps : List (Option (Outcome α))) :
    (marks ps).find? (fun leaf => !leaf.isErr) =
      (ps.filterMap fun p => p).find? fun leaf => !leaf.isErr := by
  induction ps with
  | nil => rfl
  | cons p ps ih =>
      cases p with
      | none => exact ih
      | some leaf =>
          change (leaf :: marks ps).find? _ = (leaf :: ps.filterMap fun p => p).find? _
          rw [List.find?_cons, List.find?_cons, ih]

/-- Without a leaf that decides, what stands last is compared. -/
theorem anyOf_marks_iff {ps : List (Option (Outcome α))}
    (herr : (ps.filterMap fun p => p).find? (fun leaf => !leaf.isErr) = none) :
    anyOf none (marks ps) = anyOf none (ps.filterMap fun p => p) ↔
      ((ps.filterMap fun p => p) = [] ∨
        (ps.filterMap fun p => p).getLast? = some (.err emptyVecError) ∨
        ps.getLast? ≠ some none) := by
  rw [anyOf, anyOf, find?_marks, herr]
  change (marks ps).getLast?.getD (.err emptyVecError) =
    (ps.filterMap fun p => p).getLast?.getD (.err emptyVecError) ↔ _
  rw [marks, List.getLast?_map]
  cases hlast : ps.getLast? with
  | none =>
      rw [List.getLast?_eq_none_iff.mp hlast]
      simp
  | some part =>
      obtain ⟨before, rfl⟩ := List.getLast?_eq_some_iff.mp hlast
      cases part with
      | some leaf => simp
      | none =>
          rw [List.filterMap_append]
          cases hleaf : (before.filterMap fun p => p).getLast? with
          | none => simp [List.getLast?_eq_none_iff.mp hleaf]
          | some leaf =>
              have hne : (before.filterMap fun p => p) ≠ [] := by
                intro hnil
                simp [hnil] at hleaf
              simp [hleaf, hne, eq_comm]

/-- Joining does not see the nesting exactly when some leaf is not an error, there is no leaf,
the last leaf reads like the error of an empty batch, or no empty batch stands behind it. -/
theorem flattens_iff (os : List (Outcome α)) :
    Flattens os ↔
      ((∃ leaf ∈ leaves os, leaf.isErr = false) ∨ leaves os = [] ∨
        (leaves os).getLast? = some (.err emptyVecError) ∨ (parts os).getLast? ≠ some none) := by
  have hany : joinAny os = anyOf none (marks (parts os)) := joinAnyFrom_eq none os
  have hparts : ((parts os).filterMap fun p => p) = leaves os := reduceOption_parts os
  have hlaw : Flattens os ↔ anyOf none (marks (parts os)) = anyOf none (leaves os) := by
    constructor
    case mp =>
        intro h
        rw [← hany, h.anyDecides]
    case mpr =>
        intro h
        constructor
        case allLeaves => exact joinAll_leaves os
        case allDecides => exact joinAllFrom_eq [] os
        case allInner =>
            intro inner items
            rw [joinAll, joinAllFrom_eq]
            exact allOf_ne_batch fun _ => leaf_of_mem_leaves
        case anyLeaves => rw [joinAny_leaves, hany, h]
        case anyDecides => rw [hany, h]
  rw [hlaw]
  cases hfind : (leaves os).find? fun leaf => !leaf.isErr with
  | some leaf =>
      have hleaf : leaf.isErr = false := by simpa using List.find?_some hfind
      have hmarks : anyOf none (marks (parts os)) = leaf := by
        rw [anyOf, find?_marks, hparts, hfind]
      have hleaves : anyOf none (leaves os) = leaf := by rw [anyOf, hfind]
      rw [hmarks, hleaves]
      exact iff_of_true rfl (.inl ⟨leaf, List.mem_of_find?_eq_some hfind, hleaf⟩)
  | none =>
      have hdecide := @anyOf_marks_iff α (parts os) (by rw [hparts, hfind])
      rw [hparts] at hdecide
      rw [hdecide]
      have hnone : ¬ ∃ leaf ∈ leaves os, leaf.isErr = false := by
        rintro ⟨leaf, hmem, hleaf⟩
        have hall := List.find?_eq_none.mp hfind leaf hmem
        simp [hleaf] at hall
      exact (or_iff_right hnone).symm

/-- An empty batch behind a real error hides it. -/
theorem flattens_fails_behind_error :
    ¬ Flattens [Outcome.err (.new .timeout "lease expired"), (.batch [] : Outcome Nat)] := by
  intro h
  have hany := h.anyLeaves
  simp [leaves, Outcome.leaves, joinAny, joinAnyFrom, OutcomeError.new, emptyVecError] at hany

end Batpak.Core
