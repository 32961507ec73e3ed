/-
Module: Batpak.Proofs.ListenerSafety
Purpose: What one connection can do to the subscription listener.
Trusted boundary: none
Main exports: AcceptsAfter, OutlivesConnections
-/
import Batpak.Netbat.SubscriptionListener
import Batpak.Proofs.FrameRoundTrip

namespace Batpak.Netbat

open Batpak.Util Batpak.Syncbat

variable {line : Bytes} {error : NetbatError} {α : Type} {delivery : SessionDelivery}
  {parts rest : List Bytes} {c : Connection} {stats : SubscriptionServeStats}

/-! ### The first line -/

/-- More than `max` bytes arrive, and the first `max` of them do not end the line. Interrupted
reads are repeated and leave no trace. -/
def OverLong (max : Nat) (reads : List ReadEvent) : Prop :=
  ∃ (bytes : Bytes) (rest : List ReadEvent),
    reads.filter (· ≠ .failed .interrupted) = bytes.map .byte ++ rest ∧
    bytes.length = max + 1 ∧ newline ∉ bytes.take max

theorem overLong_nil (max : Nat) : ¬OverLong max [] := by
  rintro ⟨bytes, rest, heq, hlength, -⟩
  cases bytes with
  | nil => cases hlength
  | cons b bytes => cases heq

theorem overLong_interrupted (max : Nat) (rest : List ReadEvent) :
    OverLong max (.failed .interrupted :: rest) ↔ OverLong max rest := by
  simp [OverLong]

/-- A read that is neither a byte nor interrupted ends the line. -/
theorem overLong_stopped {event : ReadEvent} (hbyte : ∀ value, event ≠ .byte value)
    (hkept : event ≠ .failed .interrupted) (max : Nat) (rest : List ReadEvent) :
    ¬OverLong max (event :: rest) := by
  rintro ⟨bytes, after, heq, hlength, -⟩
  rw [List.filter_cons_of_pos (by simpa using hkept)] at heq
  cases bytes with
  | nil => cases hlength
  | cons b bytes =>
      injection heq with hhead
      exact hbyte b hhead

theorem overLong_byte_zero (value : UInt8) (rest : List ReadEvent) :
    OverLong 0 (.byte value :: rest) := by
  refine ⟨[value], rest.filter (· ≠ .failed .interrupted), ?_, rfl, ?_⟩
  · simp
  · simp

theorem overLong_byte_succ (max : Nat) (value : UInt8) (rest : List ReadEvent) :
    OverLong (max + 1) (.byte value :: rest) ↔ value ≠ newline ∧ OverLong max rest := by
  constructor
  · rintro ⟨bytes, after, heq, hlength, hend⟩
    cases bytes with
    | nil => cases hlength
    | cons b bytes =>
        rw [List.filter_cons_of_pos (by simp)] at heq
        injection heq with hhead htail
        cases hhead
        rw [List.take_succ_cons, List.mem_cons, not_or] at hend
        exact ⟨Ne.symm hend.1, bytes, after, htail, Nat.succ.inj hlength, hend.2⟩
  · rintro ⟨hvalue, bytes, after, heq, hlength, hend⟩
    refine ⟨value :: bytes, after, ?_, ?_, ?_⟩
    · rw [List.filter_cons_of_pos (by simp), heq]
      rfl
    · rw [List.length_cons, hlength]
    · rw [List.take_succ_cons, List.mem_cons, not_or]
      exact ⟨Ne.symm hvalue, hend⟩

/-- The reader finds a line too long exactly when it is. -/
theorem readLineFrom_lineTooLong_iff {max : Nat} (hline : line.length ≤ max)
    (reads : List ReadEvent) :
    (∃ rest, readLineFrom max line reads = .returned (.error (.lineTooLong max)) rest) ↔
      OverLong (max - line.length) reads := by
  induction reads generalizing line with
  | nil =>
      constructor
      · rintro ⟨rest, h⟩
        cases h
      · intro h
        exact absurd h (overLong_nil _)
  | cons event later ih =>
      cases event with
      | byte value =>
          rw [readLineFrom, List.length_append, List.length_singleton]
          by_cases hfull : max < line.length + 1
          · have hzero : max - line.length = 0 := by omega
            rw [if_pos hfull, hzero]
            simp [overLong_byte_zero]
          · have hroom : max - line.length = max - (line ++ [value]).length + 1 := by
              rw [List.length_append, List.length_singleton]
              omega
            rw [if_neg hfull, hroom, overLong_byte_succ]
            by_cases hend : value = newline
            · simp [hend]
            · have hnext : (line ++ [value]).length ≤ max := by
                rw [List.length_append, List.length_singleton]
                omega
              rw [if_neg hend, ih hnext]
              simp [hend]
      | endOfStream =>
          have hstop : ¬OverLong (max - line.length) (.endOfStream :: later) := by
            apply overLong_stopped
            · intro value h
              cases h
            · intro h
              cases h
          rw [readLineFrom]
          split_ifs <;> simp [hstop]
      | failed kind =>
          by_cases hkind : kind = .interrupted
          · subst hkind
            rw [readLineFrom, ih hline, overLong_interrupted]
          · have hstop : ¬OverLong (max - line.length) (.failed kind :: later) := by
              apply overLong_stopped
              · intro value h
                cases h
              · intro h
                injection h with h
                exact hkind h
            cases kind with
            | interrupted => exact absurd rfl hkind
            | wouldBlock => simp [readLineFrom, hstop]
            | timedOut => simp [readLineFrom, hstop]
            | other name => simp [readLineFrom, hstop]

theorem readLine_lineTooLong_iff (max : Nat) (reads : List ReadEvent) :
    (∃ rest, readLine max reads = .returned (.error (.lineTooLong max)) rest) ↔
      OverLong max reads := by
  apply readLineFrom_lineTooLong_iff
  exact Nat.zero_le max

/-- The three errors of the reader. -/
theorem readLineFrom_error {max : Nat} {reads rest : List ReadEvent}
    (h : readLineFrom max line reads = .returned (.error error) rest) :
    error = .emptyStream ∨ error = .lineTooLong max ∨ ∃ kind, error = .io kind := by
  induction reads generalizing line with
  | nil => cases h
  | cons event later ih =>
      cases event with
      | byte value =>
          rw [readLineFrom] at h
          split_ifs at h
          · cases h
            exact .inr (.inl rfl)
          · cases h
          · exact ih h
      | endOfStream =>
          rw [readLineFrom] at h
          split_ifs at h
          · cases h
            exact .inl rfl
          · cases h
      | failed kind =>
          cases kind with
          | interrupted => exact ih h
          | wouldBlock =>
              cases h
              exact .inr (.inr ⟨_, rfl⟩)
          | timedOut =>
              cases h
              exact .inr (.inr ⟨_, rfl⟩)
          | other name =>
              cases h
              exact .inr (.inr ⟨_, rfl⟩)

/-! ### One connection -/

/-- The error of a call that says nothing about the protocol. -/
def IsIo (error : NetbatError) : Prop :=
  ∃ kind, error = .io kind

section Frames

variable {limits : Limits}

theorem token_new_error {validate : Bytes → Except String Unit} {text : Bytes}
    (h : Token.new validate text = .error error) : ¬IsIo error := by
  unfold Token.new at h
  split at h
  · cases h
  · cases h
    rintro ⟨kind, hkind⟩
    cases hkind

theorem subscriptionToken_new_error {id : Bytes}
    (h : SubscriptionToken.new id limits = .error error) : ¬IsIo error := by
  unfold SubscriptionToken.new at h
  split_ifs at h
  · cases h
    rintro ⟨kind, hkind⟩
    cases hkind
  · exact token_new_error h

theorem orMalformed_error {reason : String} {x : Except NetbatError α}
    (h : orMalformed reason x = .error error) : ¬IsIo error := by
  cases x with
  | ok a => cases h
  | error e =>
      cases h
      rintro ⟨kind, hkind⟩
      cases hkind

theorem counter_new_error {bound : Nat} {value : Fin bound} {zero : String}
    (h : Counter.new value zero = .error error) : ¬IsIo error := by
  unfold Counter.new at h
  split_ifs at h
  cases h
  rintro ⟨kind, hkind⟩
  cases hkind

theorem errorSubscription_error {id : Option Bytes} (h : errorSubscription limits id = .error error) :
    ¬IsIo error := by
  cases id with
  | some id => exact subscriptionToken_new_error h
  | none => exact orMalformed_error h

/-- A frame that cannot be made is not a failed call. -/
theorem deliveryToFrame_error_kind (h : deliveryToFrame limits delivery = .error error) :
    ¬IsIo error := by
  cases delivery with
  | event event =>
      rcases bindError_iff.mp h with h | ⟨_, _, h⟩
      · exact subscriptionToken_new_error h
      · rcases bindError_iff.mp h with h | ⟨_, _, h⟩
        · exact orMalformed_error h
        · rcases bindError_iff.mp h with h | ⟨_, _, h⟩
          · exact counter_new_error h
          · cases h
  | watermark watermark =>
      rcases bindError_iff.mp h with h | ⟨_, _, h⟩
      · exact subscriptionToken_new_error h
      · rcases bindError_iff.mp h with h | ⟨_, _, h⟩
        · exact counter_new_error h
        · cases h
  | error e =>
      rcases bindError_iff.mp h with h | ⟨_, _, h⟩
      · rcases bindError_iff.mp h with h | ⟨_, _, h⟩
        · exact errorSubscription_error h
        · rcases bindError_iff.mp h with h | ⟨_, _, h⟩
          · exact orMalformed_error h
          · cases h
      · cases h
  | ended e =>
      rcases bindError_iff.mp h with h | ⟨_, _, h⟩
      · rcases bindError_iff.mp h with h | ⟨_, _, h⟩
        · exact subscriptionToken_new_error h
        · rcases bindError_iff.mp h with h | ⟨_, _, h⟩
          · exact orMalformed_error h
          · cases h
      · cases h

theorem mapRuntimeError_kind (error : SubscriptionRuntimeError) : ¬IsIo (mapRuntimeError error) := by
  rintro ⟨kind, hkind⟩
  cases error <;> cases hkind

/-- The reply to a subscription that does not open always has a frame: its subscription was
read under the same limits. -/
theorem mapOpenError_frame {subscriptionId : SubscriptionToken}
    (hshort : subscriptionId.text.length ≤ limits.maxSubscriptionIdBytes)
    (error : SubscriptionRuntimeError) :
    ∃ frame, deliveryToFrame limits (mapOpenError subscriptionId.text error) = .ok frame := by
  have hid : SubscriptionToken.new subscriptionId.text limits = .ok subscriptionId := by
    rw [SubscriptionToken.new, if_neg (Nat.not_lt.mpr hshort), Token.new_text]
  have hreply : ∀ code : String, validateReasonCode (ascii code) = .ok () → ∀ message : Bytes,
      ∃ frame, deliveryToFrame limits
        (.error ⟨some subscriptionId.text, ascii code, none, none, message⟩) = .ok frame := by
    intro code hvalid message
    have hcode : StreamReasonCode.new (ascii code) = .ok ⟨ascii code, hvalid⟩ :=
      Token.new_text ⟨ascii code, hvalid⟩
    exact ⟨.subErr ⟨subscriptionId, ⟨ascii code, hvalid⟩, .absent, .absent, message⟩, by
      simp [deliveryToFrame, mapErrorFrame, errorSubscription, hid, hcode, orMalformed,
        Except.mapError, bind, Except.bind, pure, Except.pure, optionalCursor]⟩
  have hinvalid : validateReasonCode (ascii cursorInvalidCode) = .ok () := by decide +kernel
  have hmismatch : validateReasonCode (ascii cursorMismatchCode) = .ok () := by decide +kernel
  have hunknown : validateReasonCode (ascii "unknown_subscription") = .ok () := by decide +kernel
  cases error with
  | unknownSubscription id => exact hreply _ hunknown _
  | cursorMismatch reason => exact hreply _ hmismatch _
  | invalidSubscriptionId reason => exact hreply _ hinvalid _
  | duplicateSubscription id => exact hreply _ hinvalid _
  | invalidRoute reason => exact hreply _ hinvalid _
  | invalidConfig reason => exact hreply _ hinvalid _
  | cursorInvalid reason => exact hreply _ hinvalid _
  | store => exact hreply _ hinvalid _
  | envelopeEncoding => exact hreply _ hinvalid _
  | worker => exact hreply _ hinvalid _
  | ackInvalid reason => exact hreply _ hinvalid _

theorem parts_bind_ok {β : Type} {m : Parts α} {f : α → Parts β} {b : β}
    (h : (m >>= f) parts = .ok (b, rest)) :
    ∃ a between, m parts = .ok (a, between) ∧ f a between = .ok (b, rest) := by
  obtain ⟨⟨a, between⟩, hm, hf⟩ := bindOk_iff.mp h
  exact ⟨a, between, hm, hf⟩

theorem parts_lift_ok {x : Except NetbatError α} {a : α}
    (h : (liftM x : Parts α) parts = .ok (a, rest)) : x = .ok a := by
  cases x with
  | error e => cases h
  | ok b =>
      cases h
      rfl

theorem subscriptionField_short {token : Bytes} {id : SubscriptionToken}
    (h : subscriptionField token limits = .ok id) :
    id.text.length ≤ limits.maxSubscriptionIdBytes := by
  obtain ⟨text, _, h⟩ := bindOk_iff.mp h
  obtain ⟨htext, hshort⟩ := SubscriptionToken.new_ok h
  rw [htext]
  exact hshort

theorem decodeSubscribe_short {frame : SubscribeFrame}
    (h : decodeSubscribe limits parts = .ok (frame, rest)) :
    frame.subscriptionId.text.length ≤ limits.maxSubscriptionIdBytes := by
  obtain ⟨_, _, _, h⟩ := parts_bind_ok h
  obtain ⟨_, _, _, h⟩ := parts_bind_ok h
  obtain ⟨_, _, _, h⟩ := parts_bind_ok h
  obtain ⟨id, _, hid, h⟩ := parts_bind_ok h
  obtain ⟨_, _, _, h⟩ := parts_bind_ok h
  obtain ⟨_, _, _, h⟩ := parts_bind_ok h
  cases h
  exact subscriptionField_short (parts_lift_ok hid)

/-- A body under the constructor of its frame. -/
theorem parts_map_ok {β : Type} {m : Parts α} {wrap : α → β} {b : β}
    (h : (wrap <$> m) parts = .ok (b, rest)) : ∃ a, m parts = .ok (a, rest) ∧ b = wrap a := by
  rw [map_eq_pure_bind] at h
  obtain ⟨a, between, hm, h⟩ := parts_bind_ok h
  cases h
  exact ⟨a, hm, rfl⟩

/-- The subscription of a request was read under the limits. -/
theorem decodeSubscribeRequest_short {frame : SubscribeFrame}
    (h : decodeSubscribeRequest line limits = .ok frame) :
    frame.subscriptionId.text.length ≤ limits.maxSubscriptionIdBytes := by
  have hline : decodeStreamLine line limits = .ok (.subscribe frame) := by
    unfold decodeSubscribeRequest at h
    split at h
    next hline =>
        cases h
        exact hline
    next => cases h
    next => cases h
  rw [decodeStreamLine, ifError_ok_iff] at hline
  obtain ⟨-, hline⟩ := hline
  rw [ifError_ok_iff, mapOk_iff] at hline
  obtain ⟨-, ⟨read, rest⟩, hparts, hread⟩ := hline
  cases hread
  obtain ⟨version, _, _, hparts⟩ := parts_bind_ok hparts
  dsimp only at hparts
  split_ifs at hparts with hversion
  · obtain ⟨_, _, hthrow, -⟩ := parts_bind_ok hparts
    cases hthrow
  obtain ⟨verb, _, _, hparts⟩ := parts_bind_ok hparts
  obtain ⟨body, _, hbody, hparts⟩ := parts_bind_ok hparts
  obtain ⟨_, _, _, hparts⟩ := parts_bind_ok hparts
  cases hparts
  unfold decodeStreamFrameBody at hbody
  split_ifs at hbody
  · obtain ⟨f, hf, heq⟩ := parts_map_ok hbody
    cases heq
    exact decodeSubscribe_short hf
  all_goals first
    | (obtain ⟨f, _, heq⟩ := parts_map_ok hbody; cases heq)
    | cases hbody

end Frames

/-- The runtime answers a poll with an error, or with a delivery that has no frame. -/
def AnswerFails (limits : Limits) : Except SubscriptionRuntimeError SessionPoll → Prop
  | .error _ => True
  | .ok (.delivery delivery) => ∃ error, deliveryToFrame limits delivery = .error error
  | .ok .blocked => False
  | .ok .ended => False

/-- The loop gets to an answer that fails. -/
def PollFails (limits : Limits) (writeFails : Nat → Option ErrorKind) (written : Nat)
    (polls : List (Except SubscriptionRuntimeError SessionPoll)) : Prop :=
  ∃ before answer after, polls = before ++ answer :: after ∧
    runSubscriptionLoop limits writeFails written before = .pending ∧ AnswerFails limits answer

section Loop

variable {limits : Limits} {writeFails : Nat → Option ErrorKind} {written next : Nat}
  {answer : Except SubscriptionRuntimeError SessionPoll}
  {rest : List (Except SubscriptionRuntimeError SessionPoll)}

theorem pollFails_of_answer (h : AnswerFails limits answer) :
    PollFails limits writeFails written (answer :: rest) :=
  ⟨[], answer, rest, rfl, rfl, h⟩

theorem pollFails_goesOn (hanswer : ¬AnswerFails limits answer)
    (hgoes : ∀ later, runSubscriptionLoop limits writeFails written (answer :: later) =
      runSubscriptionLoop limits writeFails next later) :
    PollFails limits writeFails written (answer :: rest) ↔
      PollFails limits writeFails next rest := by
  constructor
  · rintro ⟨before, failing, after, heq, hbefore, hfails⟩
    cases before with
    | nil =>
        injection heq with hhead
        subst hhead
        exact absurd hfails hanswer
    | cons first before =>
        injection heq with hhead htail
        subst hhead
        rw [hgoes] at hbefore
        exact ⟨before, failing, after, htail, hbefore, hfails⟩
  · rintro ⟨before, failing, after, heq, hbefore, hfails⟩
    subst heq
    refine ⟨answer :: before, failing, after, rfl, ?_, hfails⟩
    rw [hgoes]
    exact hbefore

theorem pollFails_stops {result : Except NetbatError Unit} (hanswer : ¬AnswerFails limits answer)
    (hstops : ∀ later,
      runSubscriptionLoop limits writeFails written (answer :: later) = .done result) :
    ¬PollFails limits writeFails written (answer :: rest) := by
  rintro ⟨before, failing, after, heq, hbefore, hfails⟩
  cases before with
  | nil =>
      injection heq with hhead
      subst hhead
      exact hanswer hfails
  | cons first before =>
      injection heq with hhead htail
      subst hhead
      rw [hstops] at hbefore
      cases hbefore

theorem sendDelivery_ok {frame : StreamFrame} (h : deliveryToFrame limits delivery = .ok frame)
    (failed : Option ErrorKind) :
    sendDelivery limits failed delivery = ioResult failed := by
  have hwrite : writeDelivery limits delivery = .ok (encodeStreamFrame frame) := by
    rw [writeDelivery, h]
    rfl
  rw [sendDelivery, hwrite]
  rfl

theorem sendDelivery_error (h : deliveryToFrame limits delivery = .error error)
    (failed : Option ErrorKind) :
    sendDelivery limits failed delivery = .error error := by
  have hwrite : writeDelivery limits delivery = .error error := by
    rw [writeDelivery, h]
    rfl
  rw [sendDelivery, hwrite]
  rfl

/-- Of the errors of the loop, those that are not failed calls come from the runtime. -/
theorem runSubscriptionLoop_fails_iff (polls : List (Except SubscriptionRuntimeError SessionPoll)) :
    (∃ error, ¬IsIo error ∧
        runSubscriptionLoop limits writeFails written polls = .done (.error error)) ↔
      PollFails limits writeFails written polls := by
  induction polls generalizing written with
  | nil =>
      constructor
      · rintro ⟨error, -, h⟩
        cases h
      · rintro ⟨before, failing, after, heq, -⟩
        cases before <;> cases heq
  | cons answer rest ih =>
      rcases answer with error | (delivery | _ | _)
      · constructor
        · intro h
          exact pollFails_of_answer trivial
        · intro h
          exact ⟨_, mapRuntimeError_kind error, rfl⟩
      · rcases hframe : deliveryToFrame limits delivery with error | frame
        · have hsend := sendDelivery_error hframe (writeFails written)
          constructor
          · intro h
            exact pollFails_of_answer ⟨error, hframe⟩
          · intro h
            refine ⟨error, deliveryToFrame_error_kind hframe, ?_⟩
            rw [runSubscriptionLoop, hsend]
        · have hanswer : ¬AnswerFails limits (.ok (.delivery delivery)) := by
            rintro ⟨error, herror⟩
            rw [hframe] at herror
            cases herror
          have hsend := sendDelivery_ok hframe (writeFails written)
          rcases hwrite : writeFails written with _ | kind
          · rw [hwrite] at hsend
            by_cases hterminal : terminalDelivery delivery = true
            · have hstops : ∀ later, runSubscriptionLoop limits writeFails written
                  (.ok (.delivery delivery) :: later) = .done (.ok ()) := by
                intro later
                rw [runSubscriptionLoop, hwrite, hsend]
                exact if_pos hterminal
              rw [hstops]
              simp [pollFails_stops hanswer hstops]
            · have hgoes : ∀ later, runSubscriptionLoop limits writeFails written
                  (.ok (.delivery delivery) :: later) =
                    runSubscriptionLoop limits writeFails (written + 1) later := by
                intro later
                rw [runSubscriptionLoop, hwrite, hsend]
                exact if_neg hterminal
              rw [hgoes, ih, pollFails_goesOn hanswer hgoes]
          · rw [hwrite] at hsend
            have hstops : ∀ later, runSubscriptionLoop limits writeFails written
                (.ok (.delivery delivery) :: later) = .done (.error (.io kind)) := by
              intro later
              rw [runSubscriptionLoop, hwrite, hsend]
              rfl
            rw [hstops]
            simp [pollFails_stops hanswer hstops, IsIo]
      · have hgoes : ∀ later, runSubscriptionLoop limits writeFails written
            (.ok .blocked :: later) = runSubscriptionLoop limits writeFails written later := by
          intro later
          rfl
        rw [hgoes, ih, pollFails_goesOn id hgoes]
      · have hstops : ∀ later, runSubscriptionLoop limits writeFails written
            (.ok .ended :: later) = .done (.ok ()) := by
          intro later
          rfl
        rw [hstops]
        simp [pollFails_stops id hstops]

end Loop

section Connections

variable (limits : Limits) (runtime : SubscriptionSessionFactory)

/-- The runtime fails a subscription it is asked for: its configuration is refused, or a
session that opened answers a poll with a failure. -/
def SubscribeFails (c : Connection) (subscribe : SubscribeFrame) : Prop :=
  let opened := runtime subscribe.subscriptionId.text (maybeCursorBytes subscribe.resumeCursor)
    subscribe.clientWindow
  (∃ reason, opened = .error (.invalidConfig reason)) ∨
    opened = .ok () ∧ c.spawnFails = none ∧ PollFails limits c.writeFails 0 c.polls

/-- The first line asks for a subscription that the runtime fails. -/
def RuntimeFails (c : Connection) : Prop :=
  ∃ line rest subscribe, readLine limits.maxLineBytes c.reads = .returned (.ok line) rest ∧
    decodeSubscribeRequest line limits = .ok subscribe ∧
    SubscribeFails limits runtime c subscribe

variable {limits runtime}

theorem ioResult_error {failed : Option ErrorKind} (h : ioResult failed = .error error) :
    IsIo error := by
  cases failed with
  | none => cases h
  | some kind =>
      cases h
      exact ⟨kind, rfl⟩

theorem ioResult_ok_iff {failed : Option ErrorKind} : ioResult failed = .ok () ↔ failed = none := by
  cases failed with
  | none => simp [ioResult]
  | some kind => simp [ioResult]

/-- What is left of a refused subscription once its error frame is out. -/
theorem failed_subscription_io (failed : Option ErrorKind) {error : NetbatError}
    (hkind : ¬IsIo error) :
    (match ioResult failed with
      | .error error => Served.done (.error error)
      | .ok () => .done (.ok ({ failedSubscriptions := 1 } : SubscriptionServeStats))) ≠
        .done (.error error) := by
  intro heq
  rcases hwrite : ioResult failed with error' | ⟨⟩
  · rw [hwrite] at heq
    cases heq
    exact hkind (ioResult_error hwrite)
  · rw [hwrite] at heq
    cases heq

theorem serveSubscribe_fails_iff {subscribe : SubscribeFrame}
    (hshort : subscribe.subscriptionId.text.length ≤ limits.maxSubscriptionIdBytes) :
    (∃ error, ¬IsIo error ∧ serveSubscribe limits runtime c subscribe = .done (.error error)) ↔
      SubscribeFails limits runtime c subscribe := by
  unfold serveSubscribe SubscribeFails
  rcases hopen : runtime subscribe.subscriptionId.text (maybeCursorBytes subscribe.resumeCursor)
    subscribe.clientWindow with error | ⟨⟩
  · obtain ⟨frame, hframe⟩ := mapOpenError_frame hshort error
    have hsend := sendDelivery_ok hframe (c.writeFails 0)
    by_cases hconfig : ∃ reason, error = .invalidConfig reason
    · obtain ⟨reason, rfl⟩ := hconfig
      constructor
      · intro h
        exact .inl ⟨reason, rfl⟩
      · intro h
        exact ⟨_, mapRuntimeError_kind (.invalidConfig reason), rfl⟩
    · constructor
      · rintro ⟨error', hkind, h⟩
        cases error with
        | invalidConfig reason => exact absurd ⟨reason, rfl⟩ hconfig
        | _ =>
            dsimp only at h
            rw [hsend] at h
            exact absurd h (failed_subscription_io (c.writeFails 0) hkind)
      · rintro (⟨reason, h⟩ | ⟨h, -⟩)
        · injection h with h
          exact absurd ⟨reason, h⟩ hconfig
        · cases h
  · rcases hspawn : ioResult c.spawnFails with error | ⟨⟩
    · have hfailed : c.spawnFails ≠ none := by
        intro hnone
        rw [hnone] at hspawn
        cases hspawn
      constructor
      · rintro ⟨error', hkind, h⟩
        dsimp only at h
        cases h
        exact absurd (ioResult_error hspawn) hkind
      · rintro (⟨reason, h⟩ | ⟨-, h, -⟩)
        · cases h
        · exact absurd h hfailed
    · have hspawned : c.spawnFails = none := ioResult_ok_iff.mp hspawn
      rw [← runSubscriptionLoop_fails_iff]
      rcases hloop : runSubscriptionLoop limits c.writeFails 0 c.polls with _ | (error | ⟨⟩)
      · simp
      · simp [hspawned]
      · simp

/-- A connection fails with a protocol error exactly when its first line is too long or the
runtime fails its subscription. -/
theorem serveConnection_fails_iff (c : Connection) :
    (∃ error, ¬IsIo error ∧ serveConnection limits runtime c = .done (.error error)) ↔
      c.cloneFails = none ∧
        (OverLong limits.maxLineBytes c.reads ∨ RuntimeFails limits runtime c) := by
  unfold serveConnection
  rcases hclone : ioResult c.cloneFails with error | ⟨⟩
  · have hfailed : c.cloneFails ≠ none := by
      intro hnone
      rw [hnone] at hclone
      cases hclone
    constructor
    · rintro ⟨error', hkind, h⟩
      dsimp only at h
      cases h
      exact absurd (ioResult_error hclone) hkind
    · rintro ⟨h, -⟩
      exact absurd h hfailed
  · have hcloned : c.cloneFails = none := ioResult_ok_iff.mp hclone
    rw [← readLine_lineTooLong_iff]
    unfold serveSubscriptionStream RuntimeFails
    rcases hread : readLine limits.maxLineBytes c.reads with ⟨error | line, rest⟩ | _
    · rcases readLineFrom_error hread with rfl | rfl | ⟨kind, rfl⟩
      · simp
      · simp [hcloned, IsIo]
      · simp [IsIo]
    · rcases hrequest : decodeSubscribeRequest line limits with error | subscribe
      · simp [hrequest]
      · have hshort := decodeSubscribeRequest_short hrequest
        simp only [hrequest]
        rw [serveSubscribe_fails_iff hshort]
        simp [hcloned, hrequest]
    · simp

end Connections

/-! ### The listener -/

section Listener

variable (config : SubscriptionServerConfig) (runtime : SubscriptionSessionFactory)

/-- An error of the listener's own host: accepting fails for good, or an accepted socket does
not take its options. -/
def HostStops (turns : List ListenerTurn) (error : NetbatError) : Prop :=
  ∃ kind, error = .io kind ∧ ∃ turn ∈ turns,
    (turn.accept = .error kind ∧ classifyAcceptError kind = .fatal) ∨
      ∃ c, turn.accept = .ok c ∧ c.optionsFail = some kind

/-- The listener gets a connection after some of its turns. -/
structure AcceptsAfter (turns before : List ListenerTurn) (stats : SubscriptionServeStats)
    (c : Connection) : Prop where
  turns_eq : ∃ after, turns = before ++ ⟨false, .ok c⟩ :: after
  accepting : serveListener config runtime {} before = .accepting stats
  room : stats.acceptedConnections < config.maxConnections

/-- No connection ends the listener: it accepts again after each one that is over, and fails
only for its host. -/
structure OutlivesConnections (turns : List ListenerTurn) : Prop where
  accepts_again : ∀ before stats c result, AcceptsAfter config runtime turns before stats c →
    c.optionsFail = none → serveConnection config.limits runtime c = .done result →
    ∃ stats', serveListener config runtime {} (before ++ [⟨false, .ok c⟩]) = .accepting stats'
  fails_by_host : ∀ error, serveListener config runtime {} turns = .failed error →
    HostStops turns error

/-- No connection that the listener gets and can set up has a first line that is too long, or
a subscription that the runtime fails. -/
def ConnectionsBehave (turns : List ListenerTurn) : Prop :=
  ∀ before stats c, AcceptsAfter config runtime turns before stats c →
    c.optionsFail = none → c.cloneFails = none →
      ¬OverLong config.limits.maxLineBytes c.reads ∧ ¬RuntimeFails config.limits runtime c

variable {config runtime}

theorem serveListener_append {stats' : SubscriptionServeStats} {before : List ListenerTurn}
    (h : serveListener config runtime stats before = .accepting stats') (rest : List ListenerTurn) :
    serveListener config runtime stats (before ++ rest) =
      serveListener config runtime stats' rest := by
  induction before generalizing stats with
  | nil =>
      cases h
      rfl
  | cons turn before ih =>
      rw [List.cons_append, serveListener]
      rw [serveListener] at h
      split_ifs at h ⊢
      rcases hturn : listenerTurn config runtime stats turn.accept with s | s | s | error
      · rw [hturn] at h
        exact ih h
      · rw [hturn] at h
        cases h
      · rw [hturn] at h
        cases h
      · rw [hturn] at h
        cases h

/-- What ends the listener in a turn: its host, or the connection it serves. -/
theorem listenerTurn_failed {accept : Except ErrorKind Connection}
    (h : listenerTurn config runtime stats accept = .failed error) :
    (∃ kind, error = .io kind ∧
      ((accept = .error kind ∧ classifyAcceptError kind = .fatal) ∨
        ∃ c, accept = .ok c ∧ c.optionsFail = some kind)) ∨
      ∃ c, accept = .ok c ∧ c.optionsFail = none ∧ ¬IsIo error ∧
        serveConnection config.limits runtime c = .done (.error error) := by
  rcases accept with kind | c
  · rw [listenerTurn] at h
    rcases hclass : classifyAcceptError kind with _ | _ | _
    · rw [hclass] at h
      cases h
    · rw [hclass] at h
      cases h
    · rw [hclass] at h
      cases h
      exact .inl ⟨kind, rfl, .inl ⟨rfl, hclass⟩⟩
  · rw [listenerTurn] at h
    rcases hoptions : c.optionsFail with _ | kind
    · rw [hoptions] at h
      rcases hserve : serveConnection config.limits runtime c with _ | (error' | connectionStats)
      · rw [hserve] at h
        cases h
      · rw [hserve] at h
        by_cases hkind : IsIo error'
        · obtain ⟨kind, rfl⟩ := hkind
          cases h
        · have heq : error' = error := by
            cases error' with
            | io kind => exact absurd ⟨kind, rfl⟩ hkind
            | _ =>
                cases h
                rfl
          subst heq
          exact .inr ⟨c, rfl, hoptions, hkind, hserve⟩
      · rw [hserve] at h
        cases h
    · rw [hoptions] at h
      cases h
      exact .inl ⟨kind, rfl, .inr ⟨c, rfl, hoptions⟩⟩

theorem serveListener_failed {turns : List ListenerTurn}
    (h : serveListener config runtime stats turns = .failed error) :
    HostStops turns error ∨ ∃ before after stats' c, turns = before ++ ⟨false, .ok c⟩ :: after ∧
      serveListener config runtime stats before = .accepting stats' ∧
      stats'.acceptedConnections < config.maxConnections ∧ c.optionsFail = none ∧
      ¬IsIo error ∧ serveConnection config.limits runtime c = .done (.error error) := by
  induction turns generalizing stats with
  | nil => cases h
  | cons turn rest ih =>
      rw [serveListener] at h
      split_ifs at h with hshutdown hroom
      rcases hturn : listenerTurn config runtime stats turn.accept with s | s | s | error'
      · rw [hturn] at h
        rcases ih h with ⟨kind, herror, t, ht, hstops⟩ | ⟨before, after, s', c, heq, hgoes, hrest⟩
        · exact .inl ⟨kind, herror, t, List.mem_cons_of_mem _ ht, hstops⟩
        · refine .inr ⟨turn :: before, after, s', c, by rw [heq, List.cons_append], ?_, hrest⟩
          rw [serveListener, if_neg hshutdown, if_neg (not_not.mpr hroom), hturn]
          exact hgoes
      · rw [hturn] at h
        cases h
      · rw [hturn] at h
        cases h
      · rw [hturn] at h
        cases h
        rcases listenerTurn_failed hturn with ⟨kind, herror, hstops⟩ | ⟨c, hc, hserve⟩
        · exact .inl ⟨kind, herror, turn, List.mem_cons_self, hstops⟩
        · obtain ⟨shutdown, accept⟩ := turn
          cases hc
          have hopen : shutdown = false := by simpa using hshutdown
          rw [hopen]
          exact .inr ⟨[], rest, stats, c, rfl, rfl, hroom, hserve⟩

/-- The turn of a connection whose socket takes its options and which is served to its end. -/
theorem listenerTurn_served (hoptions : c.optionsFail = none)
    {result : Except NetbatError SubscriptionServeStats}
    (hserve : serveConnection config.limits runtime c = .done result) :
    (∃ stats', listenerTurn config runtime stats (.ok c) = .accepting stats') ∨
      ∃ error, ¬IsIo error ∧ result = .error error ∧
        listenerTurn config runtime stats (.ok c) = .failed error := by
  rw [listenerTurn, hoptions]
  dsimp only [ioResult]
  rw [hserve]
  rcases result with error | connectionStats
  · cases error with
    | io kind => exact .inl ⟨_, rfl⟩
    | _ =>
        refine .inr ⟨_, ?_, rfl, rfl⟩
        rintro ⟨kind, hkind⟩
        cases hkind
  · exact .inl ⟨_, rfl⟩

/-- The turn of a connection, after the turns before it. -/
theorem AcceptsAfter.turn {turns before : List ListenerTurn}
    (h : AcceptsAfter config runtime turns before stats c) :
    serveListener config runtime {} (before ++ [⟨false, .ok c⟩]) =
      listenerTurn config runtime stats (.ok c) := by
  rw [serveListener_append h.accepting, serveListener, if_neg Bool.false_ne_true,
    if_neg (not_not.mpr h.room)]
  rcases listenerTurn config runtime stats (.ok c) with s | s | s | error
  · rfl
  · rfl
  · rfl
  · rfl

/-- A peer ends the listener exactly by a first line that is too long: every other error that a
connection comes to ends that connection. -/
theorem listener_outlives_connections_iff (config : SubscriptionServerConfig)
    (runtime : SubscriptionSessionFactory) (turns : List ListenerTurn) :
    OutlivesConnections config runtime turns ↔ ConnectionsBehave config runtime turns := by
  constructor
  · intro hlives before stats c hafter hoptions hclone
    have hends : ¬(OverLong config.limits.maxLineBytes c.reads ∨
        RuntimeFails config.limits runtime c) := by
      intro hcause
      obtain ⟨error, hkind, hserve⟩ := (serveConnection_fails_iff c).mpr ⟨hclone, hcause⟩
      obtain ⟨stats', hagain⟩ := hlives.accepts_again before stats c _ hafter hoptions hserve
      rw [hafter.turn, listenerTurn, hoptions] at hagain
      dsimp only [ioResult] at hagain
      rw [hserve] at hagain
      cases error with
      | io kind => exact hkind ⟨kind, rfl⟩
      | _ => cases hagain
    exact not_or.mp hends
  · intro hbehave
    have hends : ∀ before stats c, AcceptsAfter config runtime turns before stats c →
        c.optionsFail = none → ∀ error, ¬IsIo error →
          serveConnection config.limits runtime c ≠ .done (.error error) := by
      intro before stats c hafter hoptions error hkind hserve
      obtain ⟨hclone, hcause⟩ := (serveConnection_fails_iff c).mp ⟨error, hkind, hserve⟩
      obtain ⟨hline, hruntime⟩ := hbehave before stats c hafter hoptions hclone
      exact hcause.elim hline hruntime
    constructor
    · intro before stats c result hafter hoptions hserve
      rw [hafter.turn]
      rcases listenerTurn_served hoptions hserve with hagain | ⟨error, hkind, rfl, -⟩
      · exact hagain
      · exact absurd hserve (hends before stats c hafter hoptions error hkind)
    · intro error hfailed
      rcases serveListener_failed hfailed with
        hhost | ⟨before, after, stats, c, heq, hgoes, hroom, hoptions, hkind, hserve⟩
      · exact hhost
      · exact absurd hserve
          (hends before stats c ⟨⟨after, heq⟩, hgoes, hroom⟩ hoptions error hkind)

end Listener

/-! ### A long line -/

def smallLimits : Limits :=
  { Limits.default with maxLineBytes := 4 }

/-- Five bytes and no end of line. -/
def longLine : Connection :=
  { reads := [.byte 97, .byte 97, .byte 97, .byte 97, .byte 97, .endOfStream] }

/-- A peer that connects and closes. -/
def earlyClose : Connection :=
  { reads := [.endOfStream] }

/-- After the long line the peer that comes next is not served. -/
theorem longLine_ends_listener :
    serveListener ⟨smallLimits, 8⟩ (fun _ _ _ => .error .worker) {}
        [⟨false, .ok earlyClose⟩, ⟨false, .ok longLine⟩, ⟨false, .ok earlyClose⟩] =
      .failed (.lineTooLong 4) ∧
    ¬OutlivesConnections ⟨smallLimits, 8⟩ (fun _ _ _ => .error .worker)
      [⟨false, .ok earlyClose⟩, ⟨false, .ok longLine⟩, ⟨false, .ok earlyClose⟩] := by
  have hfailed : serveListener ⟨smallLimits, 8⟩ (fun _ _ _ => .error .worker) {}
      [⟨false, .ok earlyClose⟩, ⟨false, .ok longLine⟩, ⟨false, .ok earlyClose⟩] =
        .failed (.lineTooLong 4) := by
    decide +kernel
  refine ⟨hfailed, ?_⟩
  intro hlives
  obtain ⟨kind, hkind, -⟩ := hlives.fails_by_host _ hfailed
  cases hkind

end Batpak.Netbat
