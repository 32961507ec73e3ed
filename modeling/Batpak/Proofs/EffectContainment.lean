/-
Module: Batpak.Proofs.EffectContainment
Purpose: The effects of a checkout stay inside the declared row, or are recorded as a denial.
Trusted boundary: none
Main exports: Within, runProgram_observes
-/
import Batpak.Syncbat.Core

namespace Batpak.Syncbat

open Batpak.Util

/-! ### Rows -/

/-- The target of the effect and the capability it needs are in the row. -/
def Effect.In (row : OperationEffectRow) : Effect → Prop
  | .appendEvent kind _ =>
      appendTarget kind ∈ row.appendsEvents ∧ eventAppendCapability ∈ row.requiresCapabilities
  | .readEvent category =>
      category ∈ row.readsEvents ∧ eventReadCapability ∈ row.requiresCapabilities
  | .queryProjection projectionId =>
      projectionId ∈ row.queriesProjections ∧
        projectionQueryCapability ∈ row.requiresCapabilities
  | .emitReceipt receiptKind =>
      receiptKind ∈ row.emitsReceipts ∧ receiptEmitCapability ∈ row.requiresCapabilities
  | .useHostControl =>
      row.usesHostControls = true ∧ hostControlCapability ∈ row.requiresCapabilities

namespace OperationEffectRow

/-- Every target of the first row is in the second. -/
structure Within (a b : OperationEffectRow) : Prop where
  reads : a.readsEvents ⊆ b.readsEvents
  appends : a.appendsEvents ⊆ b.appendsEvents
  queries : a.queriesProjections ⊆ b.queriesProjections
  emits : a.emitsReceipts ⊆ b.emitsReceipts
  controls : a.usesHostControls = true → b.usesHostControls = true
  capabilities : a.requiresCapabilities ⊆ b.requiresCapabilities

variable {a b : OperationEffectRow}

theorem Within.effect (h : a.Within b) {effect : Effect} (heffect : effect.In a) :
    effect.In b := by
  cases effect with
  | appendEvent kind payload => exact ⟨h.appends heffect.1, h.capabilities heffect.2⟩
  | readEvent category => exact ⟨h.reads heffect.1, h.capabilities heffect.2⟩
  | queryProjection projectionId => exact ⟨h.queries heffect.1, h.capabilities heffect.2⟩
  | emitReceipt receiptKind => exact ⟨h.emits heffect.1, h.capabilities heffect.2⟩
  | useHostControl => exact ⟨h.controls heffect.1, h.capabilities heffect.2⟩

@[simp] theorem mem_insertSorted {targets : List String} {target x : String} :
    x ∈ insertSorted targets target ↔ x = target ∨ x ∈ targets := by
  unfold insertSorted
  split_ifs with hmem
  · constructor
    · exact .inr
    · rintro (rfl | h)
      · exact hmem
      · exact h
  · have hsplit : x ∈ targets ↔
        x ∈ targets.takeWhile (· < target) ∨ x ∈ targets.dropWhile (· < target) := by
      rw [← List.mem_append, List.takeWhile_append_dropWhile]
    rw [List.mem_append, List.mem_cons, hsplit]
    exact or_left_comm

theorem subset_insertSorted (targets : List String) (target : String) :
    targets ⊆ insertSorted targets target :=
  fun _ hx => mem_insertSorted.mpr (.inr hx)

theorem self_mem_insertSorted (targets : List String) (target : String) :
    target ∈ insertSorted targets target :=
  mem_insertSorted.mpr (.inl rfl)

/-- The comparison misses nothing on one axis. -/
theorem firstMissing_eq_none {debug : String → String} {field : String}
    {observed declared : List String} :
    firstMissing debug field observed declared = none ↔ observed ⊆ declared := by
  unfold firstMissing
  rw [Option.map_eq_none_iff, List.find?_eq_none]
  simp [List.subset_def]

theorem firstViolationAgainst_eq_none {debug : String → String} :
    a.firstViolationAgainst debug b = none ↔ a.Within b := by
  unfold firstViolationAgainst
  simp only [Option.or_eq_none_iff, firstMissing_eq_none]
  constructor
  · rintro ⟨hreads, happends, hqueries, hemits, hcontrols, hcapabilities⟩
    refine ⟨hreads, happends, hqueries, hemits, ?_, hcapabilities⟩
    intro huses
    by_contra hnot
    simp [huses, hnot] at hcontrols
  · intro h
    refine ⟨h.reads, h.appends, h.queries, h.emits, ?_, h.capabilities⟩
    cases huses : a.usesHostControls with
    | false => rfl
    | true => simp [h.controls huses]

theorem Within.refl (a : OperationEffectRow) : a.Within a :=
  ⟨fun _ h => h, fun _ h => h, fun _ h => h, fun _ h => h, fun h => h, fun _ h => h⟩

end OperationEffectRow

/-! ### Handles -/

section Handles

variable {β : Type} {backend : Option (EffectBackend β)} {ctx : Ctx β}

/-- Every performed effect is in the observed row. -/
def Ctx.Observes (ctx : Ctx β) : Prop :=
  ∀ effect ∈ ctx.performed, effect.In ctx.observedEffects

theorem observes_performEffect {capability : String} {effect : Effect}
    {record : OperationEffectRow → OperationEffectRow} (h : ctx.Observes)
    (hgrows : ctx.observedEffects.Within (record ctx.observedEffects))
    (hrecord : effect.In (record ctx.observedEffects)) :
    (ctx.performEffect backend capability effect record).1.Observes := by
  unfold Ctx.performEffect
  cases backend with
  | none => exact h
  | some handle =>
      dsimp only
      split
      · exact h
      · intro x hx
        rcases List.mem_append.mp hx with hold | hnew
        · exact hgrows.effect (h x hold)
        · rw [List.mem_singleton.mp hnew]
          exact hrecord

open OperationEffectRow in
theorem observes_perform (h : ctx.Observes) (effect : Effect) :
    (ctx.perform backend effect).1.Observes := by
  have hrow := Within.refl ctx.observedEffects
  cases effect with
  | appendEvent kind payload =>
      apply observes_performEffect h
      · exact ⟨hrow.reads, subset_insertSorted _ _, hrow.queries, hrow.emits, hrow.controls,
          subset_insertSorted _ _⟩
      · exact ⟨self_mem_insertSorted _ _, self_mem_insertSorted _ _⟩
  | readEvent category =>
      apply observes_performEffect h
      · exact ⟨subset_insertSorted _ _, hrow.appends, hrow.queries, hrow.emits, hrow.controls,
          subset_insertSorted _ _⟩
      · exact ⟨self_mem_insertSorted _ _, self_mem_insertSorted _ _⟩
  | queryProjection projectionId =>
      apply observes_performEffect h
      · exact ⟨hrow.reads, hrow.appends, subset_insertSorted _ _, hrow.emits, hrow.controls,
          subset_insertSorted _ _⟩
      · exact ⟨self_mem_insertSorted _ _, self_mem_insertSorted _ _⟩
  | emitReceipt receiptKind =>
      apply observes_performEffect h
      · exact ⟨hrow.reads, hrow.appends, hrow.queries, subset_insertSorted _ _, hrow.controls,
          subset_insertSorted _ _⟩
      · exact ⟨self_mem_insertSorted _ _, self_mem_insertSorted _ _⟩
  | useHostControl =>
      apply observes_performEffect h
      · exact ⟨hrow.reads, hrow.appends, hrow.queries, hrow.emits, fun _ => rfl,
          subset_insertSorted _ _⟩
      · exact ⟨rfl, self_mem_insertSorted _ _⟩

/-- Whatever a guard or a handler does, what it performed is observed. -/
theorem runProgram_observes {α : Type} (program : Program α) (h : ctx.Observes) :
    (runProgram backend program ctx).2.Observes := by
  induction program generalizing ctx with
  | done result => exact h
  | perform effect next ih => exact ih _ (observes_perform h effect)
  | observed next ih => exact ih _ h
  | attachSigned key value next ih => exact ih h
  | attachLocal key value next ih => exact ih h

end Handles

/-! ### Denials -/

/-- Nothing recorded says anything but that the operation was started or denied. -/
structure Records.Denying (records : Records) : Prop where
  receipts : ∀ r ∈ records.receipts, ∃ code message, r.outcome = .denied code message
  statuses : ∀ s ∈ records.statuses, s.lifecycle = .started ∨ s.lifecycle = .denied

/-- The sinks refuse nothing. -/
def Core.SinksAccept {β : Type} (core : Core β) : Prop :=
  (∀ sink ∈ core.receiptSink, ∀ envelope, sink envelope = .ok ()) ∧
    ∀ sink ∈ core.statusSink, ∀ fact, sink fact = .ok ()

/-- The checkout fails and records a denial, if anything; with sinks that accept it there is
one. -/
structure CheckoutTrace.Denied {β : Type} (core : Core β) (trace : CheckoutTrace β) : Prop where
  refused : ∀ result, trace.result ≠ .ok result
  denying : trace.records.Denying
  recorded : core.SinksAccept → core.receiptSink.isSome = true →
    ∃ r ∈ trace.records.receipts, ∃ code message, r.outcome = .denied code message

section Denials

variable {β : Type} {core : Core β} {descriptor : OperationDescriptor} {records : Records}

/-- A fact is refused, or recorded if there is a sink. -/
theorem recordFact_cases (fact : OperationStatusFactV1) (cause : Option ReceiptSinkHandlerCause) :
    (∃ error, core.recordFact descriptor fact cause records = .error error records ∧
      ¬core.SinksAccept) ∨
    ∃ added, core.recordFact descriptor fact cause records =
      .ok () { records with statuses := records.statuses ++ added } ∧ ∀ x ∈ added, x = fact := by
  unfold Core.recordFact
  cases hsink : core.statusSink with
  | none => exact .inr ⟨[], by simp, by simp⟩
  | some sink =>
      dsimp only
      cases hfact : sink fact with
      | ok => exact .inr ⟨[fact], rfl, by simp⟩
      | error message =>
          refine .inl ⟨_, rfl, ?_⟩
          intro haccept
          rw [haccept.2 sink hsink fact] at hfact
          cases hfact

theorem recordRuntimeStatus_cases (lifecycle : OperationStatusLifecycle) (input : Bytes)
    (output : Option Bytes) (code message : Option String)
    (cause : Option ReceiptSinkHandlerCause) :
    (∃ error, core.recordRuntimeStatus descriptor lifecycle input output code message cause
      records = .error error records ∧ ¬core.SinksAccept) ∨
    ∃ added, core.recordRuntimeStatus descriptor lifecycle input output code message cause
      records = .ok () { records with statuses := records.statuses ++ added } ∧
        ∀ x ∈ added, x.lifecycle = lifecycle := by
  rcases recordFact_cases _ cause with hrefused | ⟨added, heq, hadded⟩
  · exact .inl hrefused
  · refine .inr ⟨added, heq, ?_⟩
    intro x hx
    rw [hadded x hx]

/-- A receipt is refused, or recorded if there is a sink. -/
theorem recordRuntimeReceipt_cases (input : Bytes) (output : Option Bytes)
    (outcome : ReceiptOutcome) (cause : Option ReceiptSinkHandlerCause)
    (metadata : ReceiptMetadata) :
    (∃ error attempts, core.recordRuntimeReceipt descriptor input output outcome cause metadata
      records = .error error { records with attempts } ∧ ¬core.SinksAccept) ∨
    ∃ receipt added attempts,
      core.recordRuntimeReceipt descriptor input output outcome cause metadata records =
        .ok receipt { records with receipts := records.receipts ++ added, attempts } ∧
      (∀ x ∈ added, x.outcome = outcome) ∧ (core.receiptSink.isSome = true → added ≠ []) := by
  unfold Core.recordRuntimeReceipt
  cases hsink : core.receiptSink with
  | none => exact .inr ⟨none, [], records.attempts, by simp, by simp, by simp⟩
  | some sink =>
      dsimp only
      split
      next hok => exact .inr ⟨_, [_], _, rfl, by simp, by simp⟩
      next message herror =>
        refine .inl ⟨_, _, rfl, ?_⟩
        intro haccept
        rw [haccept.1 sink hsink] at herror
        cases herror

theorem Records.Denying.addStatus {added : List OperationStatusFactV1}
    (h : records.Denying)
    (hadded : ∀ x ∈ added, x.lifecycle = .started ∨ x.lifecycle = .denied) :
    Records.Denying { records with statuses := records.statuses ++ added } := by
  refine ⟨h.receipts, ?_⟩
  intro s hs
  rcases List.mem_append.mp hs with hold | hnew
  · exact h.statuses s hold
  · exact hadded s hnew

/-- A denial ends the checkout and is all that it records. -/
theorem denied_deny {input : Bytes} {code message : String} {metadata : ReceiptMetadata}
    {ctx : Ctx β} (h : records.Denying) :
    (CheckoutTrace.mk ctx (core.deny descriptor input code message metadata records)).Denied
      core := by
  unfold Core.deny
  rcases @recordRuntimeStatus_cases β core descriptor records .denied input none (some code)
    (some message) none with ⟨error, heq, hrefuses⟩ | ⟨added, heq, hadded⟩
  · refine ⟨?_, ?_, fun haccept => absurd haccept hrefuses⟩
    · intro result hresult
      simp only [CheckoutTrace.result, bind, EStateM.bind, heq] at hresult
      cases hresult
    · simpa only [CheckoutTrace.records, bind, EStateM.bind, heq] using h
  · have hstatus := h.addStatus fun x hx => .inr (hadded x hx)
    generalize { records with statuses := records.statuses ++ added } = after at heq hstatus
    rcases @recordRuntimeReceipt_cases β core descriptor after input none
      (.denied code message) none metadata with
      ⟨error, attempts, hreceipt, hrefuses⟩ | ⟨receipt, more, attempts, hreceipt, hmore, hbound⟩
    · refine ⟨?_, ?_, fun haccept => absurd haccept hrefuses⟩
      · intro result hresult
        simp only [CheckoutTrace.result, bind, EStateM.bind, heq, hreceipt] at hresult
        cases hresult
      · simp only [CheckoutTrace.records, bind, EStateM.bind, heq, hreceipt]
        exact ⟨hstatus.receipts, hstatus.statuses⟩
    · refine ⟨?_, ?_, ?_⟩
      · intro result hresult
        simp only [CheckoutTrace.result, bind, EStateM.bind, heq, hreceipt] at hresult
        cases hresult
      · simp only [CheckoutTrace.records, bind, EStateM.bind, heq, hreceipt]
        refine ⟨?_, hstatus.statuses⟩
        intro r hr
        rcases List.mem_append.mp hr with hold | hnew
        · exact hstatus.receipts r hold
        · exact ⟨code, message, hmore r hnew⟩
      · intro _ hsink
        simp only [CheckoutTrace.records, bind, EStateM.bind, heq, hreceipt]
        obtain ⟨r, hr⟩ := List.exists_mem_of_ne_nil _ (hbound hsink)
        exact ⟨r, List.mem_append_right _ hr, code, message, hmore r hr⟩

theorem denying_empty : Records.Denying {} := by
  constructor
  · intro r hr
    cases hr
  · intro s hs
    cases hs

end Denials

/-! ### Checkouts -/

section Checkouts

variable {β : Type} {core : Core β}

theorem observes_admission {descriptor : OperationDescriptor} {input : Bytes} {ctx : Ctx β}
    (h : ctx.Observes) : (core.admission descriptor input ctx).2.Observes := by
  unfold Core.admission
  cases core.admissionGuard with
  | none => exact h
  | some guard => exact runProgram_observes _ h

theorem observes_dispatch {descriptor : OperationDescriptor} {input : Bytes} {ctx : Ctx β}
    (h : ctx.Observes) : (core.dispatch descriptor input ctx).ctx.Observes := by
  unfold Core.dispatch
  cases core.recordStarted descriptor {} with
  | error error records => exact h
  | ok started records =>
      dsimp only
      cases core.handlers[descriptor.name]? with
      | none => exact h
      | some handler => exact runProgram_observes _ h

theorem observes_checkout (backend : β) (name : String) (input : Bytes) :
    (core.checkout backend name input).ctx.Observes := by
  have hnew : (Ctx.new backend).Observes := by
    intro effect heffect
    cases heffect
  unfold Core.checkout
  cases core.descriptors[name]? with
  | none => exact hnew
  | some descriptor =>
      have hadmission := @observes_admission β core descriptor input _ hnew
      dsimp only
      cases (core.admission descriptor input (Ctx.new backend)).1 with
      | deny code message => exact hadmission
      | admitted => exact observes_dispatch hadmission

/-- A dispatch ends in the comparison of the rows, unless the started fact is refused. -/
theorem dispatch_cases {name : String} {descriptor : OperationDescriptor} {input : Bytes}
    {ctx : Ctx β} (hmounted : core.descriptors[name]? = some descriptor) :
    (∃ error, core.dispatch descriptor input ctx = ⟨ctx, .error error {}⟩ ∧
      ¬core.SinksAccept) ∨
    ∃ (records : Records) (ran : Except HandlerError Bytes × Ctx β), records.Denying ∧
      core.dispatch descriptor input ctx =
        ⟨ran.2, core.finishHandlerPhase descriptor input ran.1 ran.2.observedEffects
          ran.2.metadata records⟩ := by
  have hnamed := core.named name descriptor hmounted
  obtain ⟨handler, hhandler⟩ := core.exists_handler hmounted
  unfold Core.dispatch Core.recordStarted
  rcases @recordFact_cases β core descriptor {}
    ⟨1, descriptor.name, .started, some descriptor.receiptKind, none, none, none, none⟩ none with
    ⟨error, heq, hrefuses⟩ | ⟨added, heq, hadded⟩
  · rw [heq]
    exact .inl ⟨error, rfl, hrefuses⟩
  · rw [heq, hnamed, hhandler]
    refine .inr ⟨_, runProgram core.effectBackend (handler input) ctx,
      denying_empty.addStatus ?_, rfl⟩
    intro x hx
    rw [hadded x hx]
    exact .inl rfl

/-- A checkout that observed an undeclared effect is denied. -/
theorem denied_checkout {backend : β} {name : String} {input : Bytes}
    {descriptor : OperationDescriptor} (hmounted : core.descriptors[name]? = some descriptor)
    {effect : Effect} (hobserved : effect.In (core.checkout backend name input).ctx.observedEffects)
    (hundeclared : ¬effect.In descriptor.effectRow) :
    (core.checkout backend name input).Denied core := by
  unfold Core.checkout at hobserved ⊢
  rw [hmounted] at hobserved ⊢
  dsimp only at hobserved ⊢
  cases hdecision : (core.admission descriptor input (Ctx.new backend)).1 with
  | deny code message => exact denied_deny denying_empty
  | admitted =>
      rw [hdecision] at hobserved
      dsimp only at hobserved ⊢
      rcases @dispatch_cases β core name descriptor input _ hmounted with
        ⟨error, heq, hrefuses⟩ | ⟨records, ran, hdenying, heq⟩
      · rw [heq]
        refine ⟨?_, denying_empty, fun haccept => absurd haccept hrefuses⟩
        intro result hresult
        cases hresult
      · rw [heq] at hobserved ⊢
        unfold Core.finishHandlerPhase
        cases hviolation : ran.2.observedEffects.firstViolationAgainst core.debug
            descriptor.effectRow with
        | some violation => exact denied_deny hdenying
        | none =>
            have hwithin := OperationEffectRow.firstViolationAgainst_eq_none.mp hviolation
            exact absurd (hwithin.effect hobserved) hundeclared

/-- A successful checkout observed nothing outside the declared row. -/
theorem within_of_checkout_ok {backend : β} {name : String} {input : Bytes}
    {result : CheckoutResult} (h : (core.checkout backend name input).result = .ok result) :
    ∃ descriptor, core.descriptors[name]? = some descriptor ∧
      (core.checkout backend name input).ctx.observedEffects.Within descriptor.effectRow := by
  cases hmounted : core.descriptors[name]? with
  | none =>
      unfold Core.checkout at h
      rw [hmounted] at h
      cases h
  | some descriptor =>
      refine ⟨descriptor, rfl, ?_⟩
      unfold Core.checkout at h ⊢
      rw [hmounted] at h ⊢
      dsimp only at h ⊢
      cases hdecision : (core.admission descriptor input (Ctx.new backend)).1 with
      | deny code message =>
          rw [hdecision] at h
          exact absurd h ((denied_deny denying_empty).refused result)
      | admitted =>
          rw [hdecision] at h
          dsimp only at h ⊢
          rcases @dispatch_cases β core name descriptor input _ hmounted with
            ⟨error, heq, -⟩ | ⟨records, ran, hdenying, heq⟩
          · rw [heq] at h
            cases h
          · rw [heq] at h ⊢
            apply OperationEffectRow.firstViolationAgainst_eq_none.mp
            unfold Core.finishHandlerPhase at h
            cases hviolation : ran.2.observedEffects.firstViolationAgainst core.debug
                descriptor.effectRow with
            | none => rfl
            | some violation =>
                rw [hviolation] at h
                exact absurd h ((denied_deny hdenying).refused result)

end Checkouts

end Batpak.Syncbat
