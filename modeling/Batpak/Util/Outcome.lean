/-
Module: Batpak.Util.Outcome
Purpose: Pre- and postcondition rules for computations that carry a mutable state through both
  return and failure (`EStateM`).
Trusted boundary: none
Main exports: finalState, Triple and its rules
-/
import Mathlib.Init

namespace Batpak.Util

variable {ε σ α β : Type}
variable {m : EStateM ε σ α} {f : α → EStateM ε σ β} {r : EStateM.Result ε σ α}

/-- The state a computation leaves behind, whether it returned or failed. -/
def finalState : EStateM.Result ε σ α → σ
  | .ok _ s => s
  | .error _ s => s

@[simp] theorem finalState_ok (a : α) (s : σ) :
    finalState (EStateM.Result.ok a s : EStateM.Result ε σ α) = s := rfl

@[simp] theorem finalState_error (e : ε) (s : σ) :
    finalState (EStateM.Result.error e s : EStateM.Result ε σ α) = s := rfl

/-- Returning another value does not change the state. -/
theorem finalState_bind_pure {β : Type} (m : EStateM ε σ α) (f : α → β) (s : σ) :
    finalState ((m >>= fun a => pure (f a)) s) = finalState (m s) := by
  change finalState (EStateM.bind m (fun a => EStateM.pure (f a)) s) = _
  unfold EStateM.bind
  cases m s with
  | ok a s' => rfl
  | error e s' => rfl

/-- What an outcome must satisfy: `Q` on return, `E` on failure. -/
def Post (Q : α → σ → Prop) (E : σ → Prop) : EStateM.Result ε σ α → Prop
  | .ok a s => Q a s
  | .error _ s => E s

/-- `Triple P m Q E`: from a state satisfying `P`, either `m` returns `a` in a state
satisfying `Q a`, or it fails in a state satisfying `E`. -/
def Triple (P : σ → Prop) (m : EStateM ε σ α) (Q : α → σ → Prop) (E : σ → Prop) : Prop :=
  ∀ s, P s → Post Q E (m s)

/-- `Keeps I m`: `m` preserves `I` on every outcome. -/
def Keeps (I : σ → Prop) (m : EStateM ε σ α) : Prop :=
  Triple I m (fun _ => I) I

section Rules

variable {P P' : σ → Prop} {Q Q' : α → σ → Prop} {R : β → σ → Prop} {E E' I : σ → Prop}

theorem Triple.bind (hm : Triple P m Q E) (hf : ∀ a, Triple (Q a) (f a) R E) :
    Triple P (m >>= f) R E := by
  intro s hs
  have h := hm s hs
  change Post R E (EStateM.bind m f s)
  unfold EStateM.bind
  cases hms : m s with
  | ok a s' =>
      rw [hms] at h
      exact hf a s' h
  | error e s' =>
      rw [hms] at h
      exact h

theorem Triple.pure {a : α} (h : ∀ s, P s → Q a s) :
    Triple P (Pure.pure a : EStateM ε σ α) Q E :=
  fun s hs => h s hs

theorem Triple.throw {e : ε} (h : ∀ s, P s → E s) :
    Triple P (MonadExcept.throw e : EStateM ε σ α) Q E :=
  fun s hs => h s hs

theorem Triple.get {Q : σ → σ → Prop} (h : ∀ s, P s → Q s s) :
    Triple P (MonadState.get : EStateM ε σ σ) Q E :=
  fun s hs => h s hs

theorem Triple.modify {g : σ → σ} {Q : PUnit → σ → Prop} (h : ∀ s, P s → Q ⟨⟩ (g s)) :
    Triple P (modify g : EStateM ε σ PUnit) Q E :=
  fun s hs => h s hs

theorem Post.mono (h : Post Q E r) (hQ : ∀ a s, Q a s → Q' a s)
    (hE : ∀ s, E s → E' s) : Post Q' E' r := by
  cases r with
  | ok a s => exact hQ a s h
  | error e s => exact hE s h

/-- Strengthen the precondition, weaken both postconditions. -/
theorem Triple.conseq (h : Triple P' m Q' E') (hP : ∀ s, P s → P' s) (hQ : ∀ a s, Q' a s → Q a s)
    (hE : ∀ s, E' s → E s) :
    Triple P m Q E := by
  intro s hs
  exact (h s (hP s hs)).mono hQ hE

theorem Triple.onError (h : Triple P m Q E') (hE : ∀ s, E' s → E s) :
    Triple P m Q E :=
  h.conseq (fun _ hs => hs) (fun _ _ hs => hs) hE

theorem Triple.onReturn (h : Triple P m Q' E) (hQ : ∀ a s, Q' a s → Q a s) : Triple P m Q E :=
  h.conseq (fun _ hs => hs) hQ fun _ hs => hs

/-- A state that is read stays. -/
theorem Triple.read {f : σ → EStateM ε σ β} (h : ∀ s, Triple P (f s) R E) :
    Triple P (MonadState.get >>= f) R E :=
  Triple.bind (Triple.get fun _ hs => hs) h

/-- Two descriptions of one computation hold together. -/
theorem Triple.and (h : Triple P m Q E) (h' : Triple P m Q' E') :
    Triple P m (fun a s => Q a s ∧ Q' a s) fun s => E s ∧ E' s := by
  intro s hs
  have hm := h s hs
  have hm' := h' s hs
  cases hms : m s with
  | ok a s' =>
      rw [hms] at hm hm'
      exact ⟨hm, hm'⟩
  | error e s' =>
      rw [hms] at hm hm'
      exact ⟨hm, hm'⟩

theorem Triple.ok {s s' : σ} {a : α}
    (h : Triple P m Q E) (hs : P s) (hm : m s = .ok a s') : Q a s' := by
  have h' := h s hs
  rw [hm] at h'
  exact h'

theorem Triple.error {s s' : σ} {e : ε}
    (h : Triple P m Q E) (hs : P s) (hm : m s = .error e s') : E s' := by
  have h' := h s hs
  rw [hm] at h'
  exact h'

theorem Post.finalState (h : Post (fun _ => I) I r) :
    I (finalState r) := by
  cases r with
  | ok a s => exact h
  | error e s => exact h

theorem Post.of_finalState (h : I (Util.finalState r)) :
    Post (fun _ => I) I r := by
  cases r with
  | ok a s => exact h
  | error e s => exact h

/-- What the state left behind satisfies, of which a failure needs a part. -/
theorem Post.of_final (h : I (Util.finalState r)) (hE : ∀ s, I s → E s) : Post (fun _ => I) E r :=
  (Post.of_finalState h).mono (fun _ _ hs => hs) hE

theorem Keeps.finalState {s : σ} (h : Keeps I m) (hs : I s) : I (finalState (m s)) := by
  have h' := h s hs
  cases hms : m s with
  | ok a s' =>
      rw [hms] at h'
      exact h'
  | error e s' =>
      rw [hms] at h'
      exact h'

theorem Keeps.bind (hm : Keeps I m) (hf : ∀ a, Keeps I (f a)) : Keeps I (m >>= f) :=
  Triple.bind hm hf

theorem Keeps.pure (a : α) : Keeps I (Pure.pure a : EStateM ε σ α) :=
  Triple.pure fun _ hs => hs

theorem Keeps.throw (e : ε) : Keeps I (MonadExcept.throw e : EStateM ε σ α) :=
  Triple.throw fun _ hs => hs

end Rules

/-! ### Peeling a successful or failed sequence apart -/

theorem bind_eq_ok {s s' : σ} {b : β} :
    (m >>= f) s = .ok b s' ↔ ∃ a s₁, m s = .ok a s₁ ∧ f a s₁ = .ok b s' := by
  change EStateM.bind m f s = .ok b s' ↔ _
  unfold EStateM.bind
  cases m s with
  | ok a s₁ =>
      constructor
      · intro h
        exact ⟨a, s₁, rfl, h⟩
      · rintro ⟨a', s₂, h₁, h₂⟩
        cases h₁
        exact h₂
  | error e s₁ => simp

theorem bind_eq_error {s s' : σ} {e : ε} :
    (m >>= f) s = .error e s' ↔
      m s = .error e s' ∨ ∃ a s₁, m s = .ok a s₁ ∧ f a s₁ = .error e s' := by
  change EStateM.bind m f s = .error e s' ↔ _
  unfold EStateM.bind
  cases m s with
  | ok a s₁ =>
      constructor
      · intro h
        exact .inr ⟨a, s₁, rfl, h⟩
      · rintro (h | ⟨a', s₂, h₁, h₂⟩)
        · cases h
        · cases h₁
          exact h₂
  | error e s₁ => simp

/-- A computation that returned runs its continuation from where it stopped. -/
theorem bind_of_ok {s s₁ : σ} {a : α} (h : m s = .ok a s₁) : (m >>= f) s = f a s₁ := by
  change EStateM.bind m f s = _
  simp [EStateM.bind, h]

end Batpak.Util
