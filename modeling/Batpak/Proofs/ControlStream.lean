/-
Module: Batpak.Proofs.ControlStream
Purpose: The control reader as a machine over single reads, and what a read timeout does to it:
  it drops the line read so far, so exactly the timeouts between lines change nothing.
Trusted boundary: none
Main exports: readControlLoop_eq_run, TimeoutsBetweenLines
-/
import Batpak.Netbat.StreamTcp
import Batpak.Util.Run
import Mathlib.Data.List.Induction

namespace Batpak.Netbat

open Batpak.Util Batpak.Syncbat

variable {s : ReaderState} {line : Bytes} {events rest : List ReadEvent}

/-! ### The reader as a machine -/

/-- The line read so far, what was sent, and whether the reader still reads. -/
structure ReaderState where
  line : Bytes
  sent : List SessionControl
  running : Bool
  deriving Repr, DecidableEq

namespace ReaderState

def start : ReaderState :=
  ⟨[], [], true⟩

def send (s : ReaderState) (control : SessionControl × Bool) : ReaderState :=
  ⟨[], s.sent ++ [control.1], control.2⟩

end ReaderState

section Machine

variable (limits : Limits) (subscriptionId : SubscriptionToken)

/-- One read of a running reader. -/
def readerRead (s : ReaderState) : ReadEvent → ReaderState
  | .byte value =>
      if limits.maxLineBytes < (s.line ++ [value]).length then s.send (.malformed, false)
      else if value = newline then
        s.send (controlOfLine limits subscriptionId (s.line ++ [value]))
      else { s with line := s.line ++ [value] }
  | .endOfStream =>
      if s.line.isEmpty then s.send (.disconnected, false)
      else
        -- the rest counts as a line, and the next read meets the end again
        let after := s.send (controlOfLine limits subscriptionId s.line)
        if after.running then after.send (.disconnected, false) else after
  | .failed kind =>
      if kind = .interrupted then s
      else if timeoutKind kind then { s with line := [] }
      else s.send (.disconnected, false)

def readerStep (s : ReaderState) (event : ReadEvent) : ReaderState :=
  if s.running then readerRead limits subscriptionId s event else s

/-- The reader after a number of reads. -/
def readerAfter (events : List ReadEvent) : ReaderState :=
  run (readerStep limits subscriptionId) .start events

/-- Where the answer of the line reader leaves the machine. -/
def settle (sent : List SessionControl) : Except NetbatError Bytes → ReaderState
  | .ok line => ReaderState.send ⟨[], sent, true⟩ (controlOfLine limits subscriptionId line)
  | .error (.io kind) =>
      if timeoutKind kind then ⟨[], sent, true⟩
      else ReaderState.send ⟨[], sent, true⟩ (.disconnected, false)
  | .error .emptyStream => ReaderState.send ⟨[], sent, true⟩ (.disconnected, false)
  | .error _ => ReaderState.send ⟨[], sent, true⟩ (.malformed, false)

end Machine

section Refinement

variable {limits : Limits} {subscriptionId : SubscriptionToken}

theorem run_stopped (h : s.running = false) (events : List ReadEvent) :
    run (readerStep limits subscriptionId) s events = s := by
  induction events with
  | nil => rfl
  | cons event rest ih =>
      have hstep : readerStep limits subscriptionId s event = s := by
        simp [readerStep, h]
      rw [run_cons, hstep]
      exact ih

theorem readerStep_running (line : Bytes) (sent : List SessionControl) (event : ReadEvent) :
    readerStep limits subscriptionId ⟨line, sent, true⟩ event =
      readerRead limits subscriptionId ⟨line, sent, true⟩ event :=
  if_pos rfl

/-- The end of the stream is seen again after the rest was taken as a line. -/
theorem readerStep_endOfStream (hline : line ≠ []) (sent : List SessionControl) :
    readerStep limits subscriptionId ⟨line, sent, true⟩ .endOfStream =
      readerStep limits subscriptionId (settle limits subscriptionId sent (.ok line))
        .endOfStream := by
  have hempty : ¬line.isEmpty = true := by simpa using hline
  have hread : readerRead limits subscriptionId
      (settle limits subscriptionId sent (.ok line)) .endOfStream =
        (settle limits subscriptionId sent (.ok line)).send (.disconnected, false) := by
    rw [readerRead]
    exact if_pos rfl
  rw [readerStep_running, readerRead, if_neg hempty, readerStep, hread]
  rfl

/-- A call of the line reader is a stretch of the machine's run. -/
theorem readLineFrom_waiting (h : readLineFrom limits.maxLineBytes line events = .waiting)
    (sent : List SessionControl) :
    (run (readerStep limits subscriptionId) ⟨line, sent, true⟩ events).sent = sent := by
  induction events generalizing line with
  | nil => rfl
  | cons event rest ih =>
      rw [run_cons, readerStep_running]
      cases event with
      | byte value =>
          rw [readLineFrom] at h
          split_ifs at h with hlong hend
          rw [readerRead, if_neg hlong, if_neg hend]
          exact ih h
      | endOfStream =>
          rw [readLineFrom] at h
          split_ifs at h
      | failed kind =>
          cases kind with
          | interrupted =>
              rw [readLineFrom] at h
              exact ih h
          | wouldBlock => cases h
          | timedOut => cases h
          | other name => cases h

theorem readLineFrom_returned {result : Except NetbatError Bytes}
    (h : readLineFrom limits.maxLineBytes line events = .returned result rest)
    (sent : List SessionControl) :
    run (readerStep limits subscriptionId) ⟨line, sent, true⟩ events =
      run (readerStep limits subscriptionId) (settle limits subscriptionId sent result) rest := by
  induction events generalizing line with
  | nil => cases h
  | cons event later ih =>
      cases event with
      | byte value =>
          rw [run_cons, readerStep_running, readerRead]
          rw [readLineFrom] at h
          split_ifs at h ⊢ with hlong hend
          · cases h
            rfl
          · cases h
            rfl
          · exact ih h
      | endOfStream =>
          rw [readLineFrom] at h
          split_ifs at h with hempty
          · cases h
            rw [List.isEmpty_iff.mp hempty]
            rfl
          · cases h
            rw [run_cons, run_cons, readerStep_endOfStream (by simpa using hempty)]
      | failed kind =>
          rw [run_cons, readerStep_running, readerRead]
          cases kind with
          | interrupted =>
              rw [readLineFrom] at h
              exact ih h
          | wouldBlock =>
              cases h
              rfl
          | timedOut =>
              cases h
              rfl
          | other name =>
              cases h
              rfl

/-- A line or an error of a read leaves fewer reads. -/
theorem readLineFrom_consumes {max : Nat} {l : Bytes}
    (h : readLineFrom max line events = .returned (.ok l) rest) :
    rest.length + l.length ≤ events.length + line.length ∧ l ≠ [] := by
  induction events generalizing line with
  | nil => cases h
  | cons event later ih =>
      cases event with
      | byte value =>
          rw [readLineFrom] at h
          split_ifs at h with hlong hend
          · cases h
          · cases h
            simp
            omega
          · obtain ⟨hlength, hne⟩ := ih h
            rw [List.length_append, List.length_singleton] at hlength
            rw [List.length_cons]
            exact ⟨by omega, hne⟩
      | endOfStream =>
          rw [readLineFrom] at h
          split_ifs at h with hempty
          · cases h
          · cases h
            exact ⟨by simp, by simpa using hempty⟩
      | failed kind =>
          cases kind with
          | interrupted =>
              rw [readLineFrom] at h
              obtain ⟨hlength, hne⟩ := ih h
              rw [List.length_cons]
              exact ⟨by omega, hne⟩
          | wouldBlock => cases h
          | timedOut => cases h
          | other name => cases h

theorem readLineFrom_io {max : Nat} {kind : ErrorKind}
    (h : readLineFrom max line events = .returned (.error (.io kind)) rest) :
    rest.length < events.length := by
  induction events generalizing line with
  | nil => cases h
  | cons event later ih =>
      rw [List.length_cons]
      cases event with
      | byte value =>
          rw [readLineFrom] at h
          split_ifs at h
          · cases h
          · cases h
          · exact Nat.lt_succ_of_lt (ih h)
      | endOfStream =>
          rw [readLineFrom] at h
          split_ifs at h <;> cases h
      | failed kind =>
          cases kind with
          | interrupted =>
              rw [readLineFrom] at h
              exact Nat.lt_succ_of_lt (ih h)
          | wouldBlock =>
              cases h
              exact Nat.lt_succ_self _
          | timedOut =>
              cases h
              exact Nat.lt_succ_self _
          | other name =>
              cases h
              exact Nat.lt_succ_self _

/-- The loop sends what the machine sends, given a turn for every read and one more. -/
theorem readControlTurns_eq_run {turns : Nat} (h : events.length < turns)
    (sent : List SessionControl) :
    sent ++ readControlTurns limits subscriptionId turns events =
      (run (readerStep limits subscriptionId) ⟨[], sent, true⟩ events).sent := by
  induction turns generalizing events sent with
  | zero => cases h
  | succ turns ih =>
      rw [readControlTurns]
      cases hread : readLine limits.maxLineBytes events with
      | waiting => rw [readLineFrom_waiting hread, List.append_nil]
      | returned result rest =>
          rw [readLineFrom_returned hread]
          rcases result with error | line
          · cases error with
            | io kind =>
                have hrest := readLineFrom_io hread
                simp only [settle]
                split_ifs with htimeout
                · exact ih (by omega) sent
                · rw [run_stopped rfl]
                  rfl
            | _ =>
                rw [run_stopped rfl]
                rfl
          · obtain ⟨hlength, hne⟩ := readLineFrom_consumes hread
            have hpos := List.length_pos_iff.mpr hne
            rw [List.length_nil] at hlength
            simp only [settle, ReaderState.send]
            cases hcontrol : controlOfLine limits subscriptionId line with
            | mk control goesOn =>
                cases goesOn with
                | true =>
                    rw [← ih (by omega) (sent ++ [control])]
                    simp
                | false =>
                    rw [run_stopped rfl]
                    rfl

theorem readControlLoop_eq_run (events : List ReadEvent) :
    readControlLoop limits subscriptionId events =
      (readerAfter limits subscriptionId events).sent :=
  readControlTurns_eq_run (Nat.lt_succ_self _) []

end Refinement

/-! ### Timeouts -/

def ReadEvent.isTimeout : ReadEvent → Bool
  | .failed kind => timeoutKind kind
  | _ => false

/-- The same bytes, arriving without any timeout. -/
def withoutTimeouts (events : List ReadEvent) : List ReadEvent :=
  events.filter fun event => !event.isTimeout

section Timeouts

variable (limits : Limits) (subscriptionId : SubscriptionToken)

/-- No timeout falls inside a line while the reader reads. -/
def TimeoutsBetweenLines (events : List ReadEvent) : Prop :=
  Guarded (readerStep limits subscriptionId)
    (fun s event => event.isTimeout = true → s.running = true → s.line = []) .start events

instance (events : List ReadEvent) :
    Decidable (TimeoutsBetweenLines limits subscriptionId events) :=
  inferInstanceAs (Decidable (Guarded _ _ _ _))

variable {limits subscriptionId}

/-- A timeout drops the line read so far and does nothing else. -/
theorem readerStep_timeout {event : ReadEvent} (h : event.isTimeout = true) :
    readerStep limits subscriptionId s event = if s.running then { s with line := [] } else s := by
  cases event with
  | byte value => cases h
  | endOfStream => cases h
  | failed kind =>
      have hkind : kind ≠ .interrupted := by
        rintro rfl
        cases h
      have hread : readerRead limits subscriptionId s (.failed kind) = { s with line := [] } := by
        rw [readerRead, if_neg hkind]
        exact if_pos h
      rw [readerStep, hread]

theorem withoutTimeouts_append (before after : List ReadEvent) :
    withoutTimeouts (before ++ after) = withoutTimeouts before ++ withoutTimeouts after :=
  List.filter_append before after

/-- Between lines a timeout leaves the reader as it is. -/
theorem run_withoutTimeouts
    (h : Guarded (readerStep limits subscriptionId)
      (fun s event => event.isTimeout = true → s.running = true → s.line = []) s events) :
    run (readerStep limits subscriptionId) s events =
      run (readerStep limits subscriptionId) s (withoutTimeouts events) := by
  induction events generalizing s with
  | nil => rfl
  | cons event rest ih =>
      obtain ⟨hevent, hrest⟩ := h
      cases htimeout : event.isTimeout with
      | true =>
          have hstep : readerStep limits subscriptionId s event = s := by
            rw [readerStep_timeout htimeout]
            split_ifs with hrunning
            · have hline := hevent htimeout hrunning
              cases s
              cases hline
              rfl
            · rfl
          rw [hstep] at hrest
          have hdrop : withoutTimeouts (event :: rest) = withoutTimeouts rest := by
            simp [withoutTimeouts, htimeout]
          rw [run_cons, hstep, hdrop]
          exact ih hrest
      | false =>
          have hkeep : withoutTimeouts (event :: rest) = event :: withoutTimeouts rest := by
            simp [withoutTimeouts, htimeout]
          rw [hkeep, run_cons, run_cons]
          exact ih hrest

/-- If a timeout changes nothing at any point, none fell inside a line. -/
theorem timeoutsBetweenLines_of_agree
    (h : ∀ before after, events = before ++ after →
      readerAfter limits subscriptionId before =
        readerAfter limits subscriptionId (withoutTimeouts before)) :
    TimeoutsBetweenLines limits subscriptionId events := by
  induction events using List.reverseRecOn with
  | nil => trivial
  | append_singleton events event ih =>
      have hbefore : TimeoutsBetweenLines limits subscriptionId events := by
        apply ih
        intro before after heq
        apply h before (after ++ [event])
        rw [heq, List.append_assoc]
      refine (guarded_append _ _ _).mpr ⟨hbefore, ?_, trivial⟩
      intro htimeout hrunning
      have hall := h (events ++ [event]) [] (List.append_nil _).symm
      have hfront := h events [event] rfl
      have hnone : withoutTimeouts [event] = [] := by
        simp [withoutTimeouts, htimeout]
      rw [withoutTimeouts_append, hnone, List.append_nil, ← hfront] at hall
      change run _ _ (events ++ [event]) = run _ _ events at hall
      rw [run_append, run_cons, run_nil, readerStep_timeout htimeout, if_pos hrunning] at hall
      have hline := congrArg ReaderState.line hall
      exact hline.symm

end Timeouts

/-- If no timeout falls inside a line, the control inputs are those of the same bytes without
any timeout; and exactly then the reader agrees with the one that sees no timeout at every
point: in the line read so far, in what was sent and in whether it still reads. -/
theorem control_stream_timeouts (limits : Limits) (subscriptionId : SubscriptionToken)
    (events : List ReadEvent) :
    (TimeoutsBetweenLines limits subscriptionId events →
      readControlLoop limits subscriptionId events =
        readControlLoop limits subscriptionId (withoutTimeouts events)) ∧
    (TimeoutsBetweenLines limits subscriptionId events ↔
      ∀ before after, events = before ++ after →
        readerAfter limits subscriptionId before =
          readerAfter limits subscriptionId (withoutTimeouts before)) := by
  refine ⟨?_, ?_, timeoutsBetweenLines_of_agree⟩
  · intro hbetween
    rw [readControlLoop_eq_run, readControlLoop_eq_run]
    exact congrArg ReaderState.sent (run_withoutTimeouts hbetween)
  · rintro hbetween before after rfl
    exact run_withoutTimeouts ((guarded_append _ _ _).mp hbetween).1

/-- The subscription of the examples. -/
def ordersToken : SubscriptionToken :=
  ⟨ascii "orders.open.v1", by decide +kernel⟩

/-- An acknowledgement whose bytes arrive with a read timeout after the verb. -/
def splitAck : List ReadEvent :=
  (ascii "NETBAT/2 SUB_ACK ").map .byte ++ [.failed .timedOut] ++
    (ascii "orders.open.v1 1 00").map .byte ++ [.byte newline]

/-- Without the timeout the frame is an acknowledgement; with it the first half is dropped and
the second one is read as a line of its own, which is malformed. -/
theorem splitAck_malformed :
    readControlLoop .default ordersToken (withoutTimeouts splitAck) = [.ack 1 [0]] ∧
    readControlLoop .default ordersToken splitAck = [.malformed] ∧
    ¬TimeoutsBetweenLines .default ordersToken splitAck := by
  decide +kernel

end Batpak.Netbat
