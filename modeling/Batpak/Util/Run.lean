/-
Module: Batpak.Util.Run
Purpose: Runs of a deterministic labelled machine, runs whose every step meets a
  condition in the state it is taken from, and the invariant rule for them.
Trusted boundary: none
Main exports: run, Guarded
-/
import Mathlib.Init

namespace Batpak.Util

variable {σ ι : Type*}

/-- The state after taking the steps of a list, oldest first. -/
def run (step : σ → ι → σ) : σ → List ι → σ
  | s, [] => s
  | s, i :: is => run step (step s i) is

/-- Every step of the list meets `ok` in the state it is taken from. -/
def Guarded (step : σ → ι → σ) (ok : σ → ι → Prop) : σ → List ι → Prop
  | _, [] => True
  | s, i :: is => ok s i ∧ Guarded step ok (step s i) is

instance decidableGuarded (step : σ → ι → σ) (ok : σ → ι → Prop) [∀ s i, Decidable (ok s i)] :
    (s : σ) → (is : List ι) → Decidable (Guarded step ok s is)
  | _, [] => inferInstanceAs (Decidable True)
  | s, i :: is =>
      have := decidableGuarded step ok (step s i) is
      inferInstanceAs (Decidable (ok s i ∧ Guarded step ok (step s i) is))

variable {step : σ → ι → σ} {ok : σ → ι → Prop} {I : σ → Prop}

@[simp] theorem run_nil (s : σ) : run step s [] = s := rfl

@[simp] theorem run_cons (s : σ) (i : ι) (is : List ι) :
    run step s (i :: is) = run step (step s i) is := rfl

theorem run_append (s : σ) (is js : List ι) :
    run step s (is ++ js) = run step (run step s is) js := by
  induction is generalizing s with
  | nil => rfl
  | cons i is ih => exact ih (step s i)

theorem guarded_append (s : σ) (is js : List ι) :
    Guarded step ok s (is ++ js) ↔
      Guarded step ok s is ∧ Guarded step ok (run step s is) js := by
  induction is generalizing s with
  | nil => simp [Guarded]
  | cons i is ih => simp only [List.cons_append, Guarded, ih, run_cons, and_assoc]

/-- An invariant kept by every admissible step holds after every admissible run. -/
theorem run_invariant
    (hstep : ∀ s i, I s → ok s i → I (step s i)) :
    ∀ (is : List ι) (s : σ), I s → Guarded step ok s is → I (run step s is)
  | [], _, hs, _ => hs
  | i :: is, s, hs, hg =>
      run_invariant hstep is (step s i) (hstep s i hs hg.1) hg.2

/-- The rule for invariants that every step keeps, whatever it is. -/
theorem run_invariant_always
    (hstep : ∀ s i, I s → I (step s i)) (is : List ι) (s : σ) (hs : I s) :
    I (run step s is) := by
  induction is generalizing s with
  | nil => exact hs
  | cons i is ih => exact ih (step s i) (hstep s i hs)

/-- A machine is live until the step after which it is closed for good. -/
theorem run_until {Live : σ → Prop} {Closed : σ → ι → σ → Prop}
    (hlive : ∀ s i, Live s → ok s i → Live (step s i) ∨ Closed s i (step s i))
    (hclosed : ∀ s i t j, Closed s i t → ok t j → Closed s i (step t j)) :
    ∀ (is : List ι) (s : σ), Live s → Guarded step ok s is →
      Live (run step s is) ∨ ∃ before i after, is = before ++ i :: after ∧
        Live (run step s before) ∧ Closed (run step s before) i (run step s is)
  | [], _, hs, _ => .inl hs
  | i :: is, s, hs, hg => by
      rcases hlive s i hs hg.1 with hnext | hend
      · rcases run_until hlive hclosed is (step s i) hnext hg.2 with
          hrun | ⟨before, j, after, rfl, hbefore, hrun⟩
        · exact .inl hrun
        · exact .inr ⟨i :: before, j, after, rfl, hbefore, hrun⟩
      · exact .inr ⟨[], i, is, rfl, hs, run_invariant (hclosed s i) is (step s i) hend hg.2⟩

/-- What a state of a run holds it held at the start, or a step of the run brought it in. -/
theorem run_origin {κ : Type*} {holds : σ → κ → Prop} {brings : σ → ι → κ → Prop} {k : κ}
    (hstep : ∀ s i, I s → ok s i → I (step s i))
    (horigin : ∀ s i, I s → ok s i → holds (step s i) k → holds s k ∨ brings s i k) :
    ∀ (is : List ι) (s : σ), I s → Guarded step ok s is → holds (run step s is) k →
      holds s k ∨ ∃ before i after, is = before ++ i :: after ∧ brings (run step s before) i k
  | [], _, _, _, hk => .inl hk
  | i :: is, s, hs, hg, hk => by
      rcases run_origin hstep horigin is (step s i) (hstep s i hs hg.1) hg.2 hk with
        hnext | ⟨before, j, after, rfl, hj⟩
      · rcases horigin s i hs hg.1 hnext with hstart | hbrings
        · exact .inl hstart
        · exact .inr ⟨[], i, is, rfl, hbrings⟩
      · exact .inr ⟨i :: before, j, after, rfl, hj⟩

end Batpak.Util
