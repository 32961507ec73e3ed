/-
Module: Batpak.Proofs.ReceiptAgreement
Purpose: Receipts and status facts of a run of checkouts agree, unless the receipt of a completion
  is refused.
Trusted boundary: none
Main exports: CheckoutCall.LosesCompletion, agrees_iff
-/
import Batpak.Syncbat.Core
import Batpak.Util.Run

namespace Batpak.Syncbat

open Batpak.Util

/-! ### Runs of checkouts -/

/-- A checkout of a run. The runtime is the one at the time of the call: its guard, its
handlers and its sinks may answer each call in their own way. -/
structure CheckoutCall (β : Type) where
  core : Core β
  name : String
  input : Bytes

namespace CheckoutCall

variable {β : Type}

def trace (call : CheckoutCall β) (backend : β) : CheckoutTrace β :=
  call.core.checkout backend call.name call.input

/-- The backend after the checkout. -/
def step (backend : β) (call : CheckoutCall β) : β :=
  (call.trace backend).ctx.backend

end CheckoutCall

/-! ### Agreement -/

/-- Both sinks are bound, and the status sink accepts every fact. -/
structure Core.Watched {β : Type} (core : Core β) : Prop where
  status : ∃ sink, core.statusSink = some sink ∧ ∀ fact, sink fact = .ok ()
  receipt : ∃ sink, core.receiptSink = some sink

def ReceiptOutcome.lifecycle : ReceiptOutcome → OperationStatusLifecycle
  | completed => .completed
  | failed _ _ => .failed
  | denied _ _ => .denied

/-- Every started fact is followed by exactly one fact, and that is a terminal one. -/
def ClosesStarted (facts : List OperationStatusFactV1) : Prop :=
  ∀ before fact after, facts = before ++ fact :: after → fact.lifecycle = .started →
    ∃ terminal, after = [terminal] ∧ terminal.lifecycle ≠ .started

/-- The receipt attempted is one, and the terminal facts have its outcome. -/
structure Records.Tells (records : Records) (envelope : ReceiptEnvelope) : Prop where
  attempted : records.attempts = [envelope]
  terminal : ∀ fact ∈ records.statuses, fact.lifecycle ≠ .started →
    fact.lifecycle = envelope.outcome.lifecycle

/-- An unknown operation leaves no trace, and a mounted one makes one attempt that its facts
agree with. -/
structure CheckoutTrace.Agrees {β : Type} (core : Core β) (name : String)
    (trace : CheckoutTrace β) : Prop where
  unknown : core.descriptors[name]? = none →
    trace.records.statuses = [] ∧ trace.records.attempts = []
  mounted : name ∈ core.descriptors → ∃ envelope, trace.records.Tells envelope
  closes : ClosesStarted trace.records.statuses

/-! ### What the sinks record -/

section Sinks

variable {β : Type} {core : Core β} {descriptor : OperationDescriptor} {records : Records}
  {input : Bytes}

theorem recordFact_watched (h : core.Watched) (fact : OperationStatusFactV1)
    (cause : Option ReceiptSinkHandlerCause) :
    core.recordFact descriptor fact cause records =
      .ok () { records with statuses := records.statuses ++ [fact] } := by
  obtain ⟨sink, hsink, haccepts⟩ := h.status
  unfold Core.recordFact
  rw [hsink]
  dsimp only
  rw [haccepts]

/-- The envelope that is handed to the sink. -/
def Core.envelope (core : Core β) (descriptor : OperationDescriptor) (input : Bytes)
    (output : Option Bytes) (outcome : ReceiptOutcome) (metadata : ReceiptMetadata) :
    ReceiptEnvelope :=
  ⟨descriptor.name, descriptor.receiptKind, core.hash input, output.bind core.hash, outcome,
    metadata.signed, metadata.local⟩

/-- The sink of the runtime refuses the envelope. -/
def Core.Refuses (core : Core β) (envelope : ReceiptEnvelope) : Prop :=
  ∃ sink message, core.receiptSink = some sink ∧ sink envelope = .error message

/-- Accepted or refused, the attempt is made. -/
theorem recordRuntimeReceipt_watched (h : core.Watched) (output : Option Bytes)
    (outcome : ReceiptOutcome) (cause : Option ReceiptSinkHandlerCause)
    (metadata : ReceiptMetadata) :
    (∃ error, core.recordRuntimeReceipt descriptor input output outcome cause metadata records =
      .error error { records with attempts := records.attempts ++
        [core.envelope descriptor input output outcome metadata] } ∧
      core.Refuses (core.envelope descriptor input output outcome metadata)) ∨
    ∃ receipt receipts, core.recordRuntimeReceipt descriptor input output outcome cause metadata
      records = .ok receipt { records with
        receipts
        attempts := records.attempts ++
          [core.envelope descriptor input output outcome metadata] } ∧
      ¬core.Refuses (core.envelope descriptor input output outcome metadata) := by
  obtain ⟨sink, hsink⟩ := h.receipt
  unfold Core.recordRuntimeReceipt Core.Refuses
  rw [hsink]
  dsimp only
  cases hanswer : sink (core.envelope descriptor input output outcome metadata) with
  | error message =>
      have hcall := hanswer
      unfold Core.envelope at hcall
      rw [hcall]
      exact .inl ⟨_, rfl, sink, message, rfl, hanswer⟩
  | ok accepted =>
      have hnever : ¬∃ other message, some sink = some other ∧
          other (core.envelope descriptor input output outcome metadata) = .error message := by
        rintro ⟨other, message, hother, herror⟩
        cases hother
        rw [hanswer] at herror
        cases herror
      unfold Core.envelope at hanswer
      rw [hanswer]
      exact .inr ⟨_, _, rfl, hnever⟩

/-- The records that an end of a checkout leaves. -/
def leaves {α : Type} : EStateM.Result RuntimeError Records α → Records
  | .ok _ records => records
  | .error _ records => records

/-- The end adds one fact and one attempt of the same outcome. -/
structure Ends (before after : Records) (envelope : ReceiptEnvelope) : Prop where
  attempts : after.attempts = before.attempts ++ [envelope]
  statuses : ∃ fact, after.statuses = before.statuses ++ [fact] ∧
    fact.lifecycle = envelope.outcome.lifecycle

theorem deny_ends (h : core.Watched) (code message : String) (metadata : ReceiptMetadata) :
    Ends records (leaves (core.deny descriptor input code message metadata records))
      (core.envelope descriptor input none (.denied code message) metadata) := by
  unfold Core.deny Core.recordRuntimeStatus
  simp only [bind, EStateM.bind, recordFact_watched h]
  rcases @recordRuntimeReceipt_watched β core descriptor _ input h none (.denied code message) none
    metadata with ⟨error, heq, -⟩ | ⟨receipt, receipts, heq, -⟩
  · rw [heq]
    exact ⟨rfl, _, rfl, rfl⟩
  · rw [heq]
    exact ⟨rfl, _, rfl, rfl⟩

theorem fail_ends (h : core.Watched) (error : HandlerError) (metadata : ReceiptMetadata) :
    Ends records (leaves (core.fail descriptor input error metadata records))
      (core.envelope descriptor input none (.failed error.errorClass error.message) metadata) := by
  unfold Core.fail Core.recordRuntimeStatus
  simp only [bind, EStateM.bind, recordFact_watched h]
  rcases @recordRuntimeReceipt_watched β core descriptor _ input h none
    (.failed error.errorClass error.message) (some ⟨error.errorClass, error.message⟩)
    metadata with ⟨refusal, heq, -⟩ | ⟨receipt, receipts, heq, -⟩
  · rw [heq]
    exact ⟨rfl, _, rfl, rfl⟩
  · rw [heq]
    exact ⟨rfl, _, rfl, rfl⟩

/-- A completion ends likewise unless its receipt is refused; then it leaves no fact. -/
theorem complete_ends (h : core.Watched) (output : Bytes) (metadata : ReceiptMetadata) :
    (¬core.Refuses (core.envelope descriptor input (some output) .completed metadata) →
      Ends records (leaves (core.complete descriptor input output metadata records))
        (core.envelope descriptor input (some output) .completed metadata)) ∧
    (core.Refuses (core.envelope descriptor input (some output) .completed metadata) →
      (leaves (core.complete descriptor input output metadata records)).statuses =
        records.statuses) := by
  unfold Core.complete Core.recordRuntimeStatus
  simp only [bind, EStateM.bind]
  rcases @recordRuntimeReceipt_watched β core descriptor records input h (some output) .completed
    none metadata with ⟨error, heq, hrefused⟩ | ⟨receipt, receipts, heq, haccepted⟩
  · rw [heq]
    exact ⟨fun haccepted => absurd hrefused haccepted, fun _ => rfl⟩
  · simp only [heq, recordFact_watched h]
    exact ⟨fun _ => ⟨rfl, _, rfl, rfl⟩, fun hrefused => absurd hrefused haccepted⟩

end Sinks

/-! ### One checkout -/

section Checkouts

variable {β : Type} {core : Core β}

theorem records_eq_leaves (trace : CheckoutTrace β) : trace.records = leaves trace.outcome := by
  unfold CheckoutTrace.records leaves
  cases trace.outcome with
  | ok result records => rfl
  | error error records => rfl

/-- The handler in the context of the guard. -/
def Core.ran (core : Core β) (descriptor : OperationDescriptor) (handler : Handler) (input : Bytes)
    (backend : β) : Except HandlerError Bytes × Ctx β :=
  runProgram core.effectBackend (handler input) (core.admission descriptor input (.new backend)).2

/-- A checkout that is admitted, whose handler succeeds within the declared row, and whose
receipt is refused. -/
def CheckoutCall.LosesCompletion (call : CheckoutCall β) (backend : β) : Prop :=
  ∃ descriptor handler output,
    call.core.descriptors[call.name]? = some descriptor ∧
    (call.core.admission descriptor call.input (.new backend)).1 = .admitted ∧
    call.core.handlers[descriptor.name]? = some handler ∧
    (call.core.ran descriptor handler call.input backend).1 = .ok output ∧
    (call.core.ran descriptor handler call.input backend).2.observedEffects.firstViolationAgainst
      call.core.debug descriptor.effectRow = none ∧
    call.core.Refuses (call.core.envelope descriptor call.input (some output) .completed
      (call.core.ran descriptor handler call.input backend).2.metadata)

/-- Records that end from nothing, or from a started fact. -/
theorem Ends.agrees {before after : Records} {envelope : ReceiptEnvelope}
    (h : Ends before after envelope) (hattempts : before.attempts = [])
    (hstatuses : before.statuses = [] ∨ ∃ started, before.statuses = [started] ∧
      started.lifecycle = .started) :
    after.Tells envelope ∧ ClosesStarted after.statuses := by
  obtain ⟨terminal, hterminal, hlifecycle⟩ := h.statuses
  have hended : terminal.lifecycle ≠ .started := by
    rw [hlifecycle]
    cases envelope.outcome with
    | completed => simp [ReceiptOutcome.lifecycle]
    | failed code message => simp [ReceiptOutcome.lifecycle]
    | denied code message => simp [ReceiptOutcome.lifecycle]
  have hattempted : after.attempts = [envelope] := by
    rw [h.attempts, hattempts, List.nil_append]
  rcases hstatuses with hnone | ⟨started, hone, hstarted⟩
  · rw [hnone, List.nil_append] at hterminal
    constructor
    · refine ⟨hattempted, ?_⟩
      intro fact hfact _
      rw [hterminal] at hfact
      rw [List.mem_singleton.mp hfact, hlifecycle]
    · intro before' fact after' heq hfact
      rw [hterminal] at heq
      have hmem : fact ∈ [terminal] := by
        rw [heq]
        simp
      rw [List.mem_singleton.mp hmem] at hfact
      exact absurd hfact hended
  · rw [hone] at hterminal
    constructor
    · refine ⟨hattempted, ?_⟩
      intro fact hfact hother
      rw [hterminal] at hfact
      rcases List.mem_pair.mp hfact with rfl | rfl
      · exact absurd hstarted hother
      · exact hlifecycle
    · intro before' fact after' heq hfact
      rw [hterminal] at heq
      cases before' with
      | nil =>
          cases heq
          exact ⟨terminal, rfl, hended⟩
      | cons first before' =>
          have hmem : fact ∈ [terminal] := by
            have htail := List.tail_eq_of_cons_eq heq
            change [terminal] = before' ++ fact :: after' at htail
            rw [htail]
            simp
          rw [List.mem_singleton.mp hmem] at hfact
          exact absurd hfact hended

/-- The started fact of an operation. -/
def startedRecords (descriptor : OperationDescriptor) : Records where
  statuses := [⟨1, descriptor.name, .started, some descriptor.receiptKind, none, none, none, none⟩]

/-- A mounted operation is admitted to its handler or denied. -/
theorem checkout_mounted {backend : β} {name : String} {input : Bytes}
    {descriptor : OperationDescriptor} (hwatched : core.Watched)
    (hmounted : core.descriptors[name]? = some descriptor) :
    (∃ code message, (core.admission descriptor input (.new backend)).1 = .deny code message ∧
      (core.checkout backend name input).records = leaves (core.deny descriptor input code message
        (core.admission descriptor input (.new backend)).2.metadata {})) ∨
    ∃ handler, (core.admission descriptor input (.new backend)).1 = .admitted ∧
      core.handlers[descriptor.name]? = some handler ∧
      (core.checkout backend name input).records = leaves (core.finishHandlerPhase descriptor input
        (core.ran descriptor handler input backend).1
        (core.ran descriptor handler input backend).2.observedEffects
        (core.ran descriptor handler input backend).2.metadata (startedRecords descriptor)) := by
  have hnamed := core.named name descriptor hmounted
  obtain ⟨handler, hhandler⟩ := core.exists_handler hmounted
  rw [← hnamed] at hhandler
  rw [records_eq_leaves]
  unfold Core.checkout
  rw [hmounted]
  dsimp only
  cases hdecision : (core.admission descriptor input (Ctx.new backend)).1 with
  | deny code message => exact .inl ⟨code, message, rfl, rfl⟩
  | admitted =>
      refine .inr ⟨handler, rfl, hhandler, ?_⟩
      dsimp only
      unfold Core.dispatch Core.recordStarted
      rw [recordFact_watched hwatched, hhandler]
      rfl

/-- An unknown operation leaves nothing. -/
theorem agrees_unknown {call : CheckoutCall β} {backend : β}
    (h : call.core.descriptors[call.name]? = none) :
    (call.trace backend).Agrees call.core call.name := by
  have hrecords : (call.trace backend).records = {} := by
    unfold CheckoutCall.trace Core.checkout
    rw [h]
    rfl
  refine ⟨?_, ?_, ?_⟩
  · intro _
    rw [hrecords]
    exact ⟨rfl, rfl⟩
  · intro hmem
    rw [← Std.ExtTreeMap.isSome_getElem?_iff_mem, h] at hmem
    cases hmem
  · intro before fact after heq _
    rw [hrecords] at heq
    have hmem : fact ∈ ([] : List OperationStatusFactV1) := by
      rw [show ([] : List OperationStatusFactV1) = before ++ fact :: after from heq]
      simp
    cases hmem

/-- A mounted operation whose records end with a fact and an attempt agrees. -/
theorem Ends.agrees_mounted {call : CheckoutCall β} {backend : β} {before : Records}
    {envelope : ReceiptEnvelope} {descriptor : OperationDescriptor}
    (h : Ends before (call.trace backend).records envelope)
    (hmounted : call.core.descriptors[call.name]? = some descriptor)
    (hattempts : before.attempts = [])
    (hstatuses : before.statuses = [] ∨ ∃ started, before.statuses = [started] ∧
      started.lifecycle = .started) :
    (call.trace backend).Agrees call.core call.name := by
  obtain ⟨htells, hcloses⟩ := h.agrees hattempts hstatuses
  refine ⟨?_, fun _ => ⟨envelope, htells⟩, hcloses⟩
  intro hnone
  rw [hmounted] at hnone
  cases hnone

theorem startedRecords_statuses (descriptor : OperationDescriptor) :
    (startedRecords descriptor).statuses = [] ∨ ∃ started,
      (startedRecords descriptor).statuses = [started] ∧ started.lifecycle = .started :=
  .inr ⟨_, rfl, rfl⟩

/-- The records of a checkout agree exactly when it does not lose a completion. -/
theorem agrees_iff (call : CheckoutCall β) (backend : β) (hwatched : call.core.Watched) :
    (call.trace backend).Agrees call.core call.name ↔ ¬call.LosesCompletion backend := by
  cases hmounted : call.core.descriptors[call.name]? with
  | none =>
      refine iff_of_true (agrees_unknown hmounted) ?_
      rintro ⟨descriptor, handler, output, hsome, -⟩
      rw [hmounted] at hsome
      cases hsome
  | some descriptor =>
      rcases @checkout_mounted β call.core backend call.name call.input descriptor hwatched hmounted
        with ⟨code, message, hdenied, hrecords⟩ | ⟨handler, hadmitted, hhandler, hrecords⟩
      · have hends := @deny_ends β call.core descriptor {} call.input hwatched code message
          (call.core.admission descriptor call.input (.new backend)).2.metadata
        rw [← hrecords] at hends
        refine iff_of_true (hends.agrees_mounted hmounted rfl (.inl rfl)) ?_
        rintro ⟨descriptor', handler, output, hsome, hadmitted, -⟩
        cases hmounted.symm.trans hsome
        rw [hdenied] at hadmitted
        cases hadmitted
      · unfold Core.finishHandlerPhase at hrecords
        cases hviolation : (call.core.ran descriptor handler call.input
            backend).2.observedEffects.firstViolationAgainst call.core.debug
              descriptor.effectRow with
        | some violation =>
            rw [hviolation] at hrecords
            have hends := @deny_ends β call.core descriptor (startedRecords descriptor) call.input
              hwatched violation.code violation.message
              (call.core.ran descriptor handler call.input backend).2.metadata
            rw [← hrecords] at hends
            refine iff_of_true (hends.agrees_mounted hmounted rfl (startedRecords_statuses _)) ?_
            rintro ⟨descriptor', handler', output, hsome, -, hhandler', -, hnone, -⟩
            cases hmounted.symm.trans hsome
            cases hhandler.symm.trans hhandler'
            rw [hviolation] at hnone
            cases hnone
        | none =>
            rw [hviolation] at hrecords
            cases hran : (call.core.ran descriptor handler call.input backend).1 with
            | error error =>
                rw [hran] at hrecords
                have hends := @fail_ends β call.core descriptor (startedRecords descriptor)
                  call.input hwatched error
                  (call.core.ran descriptor handler call.input backend).2.metadata
                rw [← hrecords] at hends
                refine iff_of_true
                  (hends.agrees_mounted hmounted rfl (startedRecords_statuses _)) ?_
                rintro ⟨descriptor', handler', output, hsome, -, hhandler', hok, -⟩
                cases hmounted.symm.trans hsome
                cases hhandler.symm.trans hhandler'
                rw [hran] at hok
                cases hok
            | ok output =>
                rw [hran] at hrecords
                obtain ⟨haccepts, hrefuses⟩ := @complete_ends β call.core descriptor
                  (startedRecords descriptor) call.input hwatched output
                  (call.core.ran descriptor handler call.input backend).2.metadata
                rw [← hrecords] at haccepts hrefuses
                constructor
                · rintro hagrees ⟨descriptor', handler', output', hsome, -, hhandler', hok, -, hlost⟩
                  cases hmounted.symm.trans hsome
                  cases hhandler.symm.trans hhandler'
                  cases hran.symm.trans hok
                  -- The started fact stands alone.
                  obtain ⟨terminal, hterminal, -⟩ := hagrees.closes [] _ [] (hrefuses hlost) rfl
                  cases hterminal
                · intro hkept
                  have hends := haccepts fun hlost => hkept
                    ⟨descriptor, handler, output, hmounted, hadmitted, hhandler, hran, hviolation,
                      hlost⟩
                  exact hends.agrees_mounted hmounted rfl (startedRecords_statuses _)

end Checkouts

/-! ### Runs -/

/-- A run of checkouts with bound sinks, of which the status sink accepts every fact: in every
checkout of the run the unknown operation leaves nothing, the mounted one makes one receipt
attempt, its started fact is closed, and its terminal fact has the outcome of the attempt,
exactly when no checkout of the run loses a completion. -/
theorem receipts_agree_iff {β : Type} (backend : β) (calls : List (CheckoutCall β))
    (hwatched : ∀ call ∈ calls, call.core.Watched) :
    Guarded CheckoutCall.step
      (fun backend call => (call.trace backend).Agrees call.core call.name) backend calls ↔
    Guarded CheckoutCall.step (fun backend call => ¬call.LosesCompletion backend) backend
      calls := by
  induction calls generalizing backend with
  | nil => exact Iff.rfl
  | cons call calls ih =>
      have hone := agrees_iff call backend (hwatched call List.mem_cons_self)
      have hrest := ih (call.step backend) fun other hother =>
        hwatched other (List.mem_cons_of_mem _ hother)
      exact and_congr hone hrest

/-! ### A refused completion -/

def echo : OperationDescriptor where
  name := "echo"
  title := none
  effect := .compute
  inputSchemaRef := "schema.echo.input.v1"
  outputSchemaRef := "schema.echo.output.v1"
  receiptKind := "receipt.echo.v1"
  effectRow := .empty

/-- A runtime that mounts one operation, with a status sink that accepts every fact. -/
def echoCore (handler : Handler) (sink : ReceiptEnvelope → Except String Unit) : Core Unit where
  descriptors := (∅ : Std.ExtTreeMap String OperationDescriptor compare).insert "echo" echo
  handlers := (∅ : Std.ExtTreeMap String Handler compare).insert "echo" handler
  admissionGuard := none
  receiptSink := some sink
  statusSink := some fun _ => .ok ()
  receiptHashPolicy := none
  effectBackend := none
  debug text := "\"" ++ text ++ "\""
  named := by
    intro name descriptor h
    rw [Std.ExtTreeMap.getElem?_insert] at h
    split at h
    next heq =>
      cases h
      exact Std.LawfulEqCmp.compare_eq_iff_eq.mp heq
    next => simp at h
  handled := by
    intro name h
    simpa using h

theorem echoCore_watched (handler : Handler) (sink : ReceiptEnvelope → Except String Unit) :
    (echoCore handler sink).Watched :=
  ⟨⟨_, rfl, fun _ => rfl⟩, sink, rfl⟩

def refusingSink : ReceiptEnvelope → Except String Unit :=
  fun _ => .error "disk full"

/-- The handler returns its input, and the sink refuses the receipt. -/
def refusedCompletion : CheckoutCall Unit :=
  ⟨echoCore (fun input => .done (.ok input)) refusingSink, "echo", []⟩

/-- The sink of a completed checkout refuses the receipt, and the started fact stays open. -/
theorem refusedCompletion_stays_open :
    refusedCompletion.core.Watched ∧
      ¬Guarded CheckoutCall.step
        (fun backend call => (call.trace backend).Agrees call.core call.name) ()
        [refusedCompletion] := by
  refine ⟨echoCore_watched _ _, ?_⟩
  rintro ⟨hagrees, -⟩
  have hstatuses : (refusedCompletion.trace ()).records.statuses = [⟨1, "echo", .started,
      some "receipt.echo.v1", none, none, none, none⟩] := by
    decide +kernel
  obtain ⟨terminal, hterminal, -⟩ := hagrees.closes [] _ [] hstatuses rfl
  cases hterminal

/-- An accepted completion, an unknown operation, and a failure whose receipt is refused. -/
def keptCalls : List (CheckoutCall Unit) :=
  [⟨echoCore (fun input => .done (.ok input)) fun _ => .ok (), "echo", []⟩,
    ⟨echoCore (fun input => .done (.ok input)) refusingSink, "absent", []⟩,
    ⟨echoCore (fun _ => .done (.error (.failed "no echo"))) refusingSink, "echo", []⟩]

theorem keptCalls_agree :
    Guarded CheckoutCall.step
      (fun backend call => (call.trace backend).Agrees call.core call.name) () keptCalls := by
  apply (receipts_agree_iff () keptCalls _).mpr
  · refine ⟨?_, ?_, ?_, trivial⟩
    · rintro ⟨descriptor, handler, output, -, -, -, -, -, sink, message, hsink, hrefused⟩
      cases hsink
      cases hrefused
    · rintro ⟨descriptor, handler, output, hmounted, -⟩
      have habsent : (echoCore (fun input => .done (.ok input)) refusingSink).descriptors["absent"]?
          = none := by decide +kernel
      rw [habsent] at hmounted
      cases hmounted
    · rintro ⟨descriptor, handler, output, hmounted, -, hhandler, hok, -⟩
      have hecho : (echoCore (fun _ => .done (.error (.failed "no echo")))
          refusingSink).descriptors["echo"]? = some echo := by decide +kernel
      cases hecho.symm.trans hmounted
      have hfails : (echoCore (fun _ => .done (.error (.failed "no echo")))
          refusingSink).handlers["echo"]? = some fun _ => .done (.error (.failed "no echo")) :=
        Std.ExtTreeMap.getElem?_insert_self
      cases hfails.symm.trans hhandler
      cases hok
  · intro call hcall
    simp only [keptCalls, List.mem_cons, List.not_mem_nil, or_false] at hcall
    rcases hcall with rfl | rfl | rfl
    · exact echoCore_watched _ _
    · exact echoCore_watched _ _
    · exact echoCore_watched _ _

end Batpak.Syncbat
