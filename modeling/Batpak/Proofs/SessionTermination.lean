/-
Module: Batpak.Proofs.SessionTermination
Purpose: The window and the end of a subscription, stated once for the five kinds of session.
Trusted boundary: none
Main exports: SessionKind.Orderly, streamKind
-/
import Batpak.Proofs.AckIndependence
import Batpak.Syncbat.UpdateSession

namespace Batpak.Syncbat

open Batpak.Util

variable {control : SessionControl} {s : UpdateSession} {m : StreamMachine}

/-! ### Windows -/

/-- What the window and the end of a session are read from. -/
structure Window where
  deliveryIndex : Nat
  lastSent : Nat
  lastAcked : Nat
  sentCursors : List (Nat × RuntimeCursor)
  ended : Bool
  terminal : Option SessionDelivery

/-- The index and the cursor of a delivery; a terminal one has neither. -/
def SessionDelivery.label : SessionDelivery → Option (U64 × RuntimeCursor)
  | .event sent => some (sent.deliveryIndex, sent.cursorAfter)
  | .watermark sent => some (sent.deliveryIndex, sent.cursorAfter)
  | .error _ => none
  | .ended _ => none

def labels (sent : List SessionDelivery) : List (U64 × RuntimeCursor) :=
  sent.filterMap SessionDelivery.label

/-- The delivery of this index left the client at this cursor. -/
def WasSent (sent : List SessionDelivery) (index : Nat) (cursor : RuntimeCursor) : Prop :=
  0 < index ∧ (labels sent)[index - 1]? = some (Fin.ofNat (2 ^ 64) index, cursor)

namespace Window

def accepts (w : Window) : SessionControl → Bool
  | .ack index cursor => w.sentCursors.lookup index = some cursor && w.lastAcked ≤ index
  | _ => false

def acked (w : Window) : SessionControl → Window
  | .ack index _ => { w with lastAcked := index }
  | _ => w

/-- Acknowledgements that are accepted one after the other. -/
def onlyAcks : Window → List SessionControl → Bool
  | _, [] => true
  | w, control :: rest => w.accepts control && (w.acked control).onlyAcks rest

/-- Behind the first input that ends the session only such acknowledgements follow. -/
def tidy : Window → List SessionControl → Bool
  | _, [] => true
  | w, control :: rest =>
      if w.accepts control then (w.acked control).tidy rest else w.onlyAcks rest

def send (w : Window) (cursor : RuntimeCursor) : Window :=
  { w with
    deliveryIndex := w.deliveryIndex + 1
    lastSent := w.deliveryIndex
    sentCursors := (w.deliveryIndex, cursor) :: w.sentCursors }

def close (w : Window) (cause : Option SessionDelivery) : Window :=
  { w with ended := true, terminal := cause }

/-- The terminal has gone out. -/
def clear (w : Window) : Window :=
  { w with terminal := none }

/-- The window agrees with what was sent. -/
structure Kept (cap : Nat) (valid : RuntimeCursor → Prop) (sent : List SessionDelivery)
    (w : Window) : Prop where
  next : w.deliveryIndex = w.lastSent + 1
  acked : w.lastAcked ≤ w.lastSent
  room : w.lastSent - w.lastAcked ≤ cap
  count : (labels sent).length = w.lastSent
  recorded : ∀ index cursor,
    w.sentCursors.lookup index = some cursor ↔ WasSent sent index cursor
  valid : ∀ label ∈ labels sent, valid label.2
  live : w.ended = false → w.terminal = none

variable {cap : Nat} {valid : RuntimeCursor → Prop} {sent : List SessionDelivery} {w : Window}

theorem onlyAcks_close {controls : List SessionControl} (h : w.onlyAcks controls = true)
    (cause : Option SessionDelivery) : (w.close cause).onlyAcks controls = true := by
  induction controls generalizing w with
  | nil => rfl
  | cons control rest ih =>
      obtain ⟨haccepts, hrest⟩ := (Bool.and_eq_true _ _).mp h
      cases control with
      | ack index cursor => exact (Bool.and_eq_true _ _).mpr ⟨haccepts, ih hrest⟩
      | cancel => cases haccepts
      | disconnected => cases haccepts
      | malformed => cases haccepts

theorem Kept.close (h : w.Kept cap valid sent) (cause : Option SessionDelivery) :
    (w.close cause).Kept cap valid sent :=
  ⟨h.next, h.acked, h.room, h.count, h.recorded, h.valid, fun hlive => by cases hlive⟩

theorem Kept.clear (h : w.Kept cap valid sent) : w.clear.Kept cap valid sent :=
  ⟨h.next, h.acked, h.room, h.count, h.recorded, h.valid, fun _ => rfl⟩

theorem Kept.bounds (h : w.Kept cap valid sent) {index : Nat} {cursor : RuntimeCursor}
    (hlookup : w.sentCursors.lookup index = some cursor) :
    0 < index ∧ index ≤ w.lastSent ∧ valid cursor := by
  obtain ⟨hpos, hlabel⟩ := (h.recorded index cursor).mp hlookup
  obtain ⟨hlt, -⟩ := List.getElem?_eq_some_iff.mp hlabel
  rw [h.count] at hlt
  exact ⟨hpos, by omega, h.valid _ (List.mem_of_getElem? hlabel)⟩

theorem Kept.ack (h : w.Kept cap valid sent) (haccepts : w.accepts control = true) :
    (w.acked control).Kept cap valid sent := by
  cases control with
  | ack index cursor =>
      simp only [accepts, Bool.and_eq_true, decide_eq_true_eq] at haccepts
      have hsent := (h.bounds haccepts.1).2.1
      have hroom := h.room
      refine ⟨h.next, hsent, ?_, h.count, h.recorded, h.valid, h.live⟩
      change w.lastSent - index ≤ cap
      omega
  | cancel => cases haccepts
  | disconnected => cases haccepts
  | malformed => cases haccepts

/-- A terminal delivery does not count. -/
theorem Kept.terminals (h : w.Kept cap valid sent) {last : List SessionDelivery}
    (hlast : ∀ delivery ∈ last, delivery.label = none) : w.Kept cap valid (sent ++ last) := by
  have hlabels : labels (sent ++ last) = labels sent := by
    rw [labels, List.filterMap_append, List.filterMap_eq_nil_iff.mpr hlast, List.append_nil]
    rfl
  refine ⟨h.next, h.acked, h.room, hlabels ▸ h.count, ?_, hlabels ▸ h.valid, h.live⟩
  intro index cursor
  rw [h.recorded, WasSent, WasSent, hlabels]

theorem Kept.sending (h : w.Kept cap valid sent) {delivery : SessionDelivery}
    {cursor : RuntimeCursor} (hroom : w.lastSent - w.lastAcked < cap) (hvalid : valid cursor)
    (hlabel : delivery.label = some (Fin.ofNat (2 ^ 64) w.deliveryIndex, cursor)) :
    (w.send cursor).Kept cap valid (sent ++ [delivery]) := by
  have hlabels : labels (sent ++ [delivery]) =
      labels sent ++ [(Fin.ofNat (2 ^ 64) w.deliveryIndex, cursor)] := by
    simp [labels, hlabel]
  have hnext := h.next
  have hacked := h.acked
  have hcount := h.count
  refine ⟨rfl, ?_, ?_, ?_, ?_, ?_, h.live⟩
  · change w.lastAcked ≤ w.deliveryIndex
    omega
  · change w.deliveryIndex - w.lastAcked ≤ cap
    omega
  · change _ = w.deliveryIndex
    rw [hlabels, List.length_append, hcount, hnext]
    rfl
  · intro index sentCursor
    change List.lookup index ((w.deliveryIndex, cursor) :: w.sentCursors) = _ ↔ _
    rw [WasSent, hlabels]
    by_cases hindex : index = w.deliveryIndex
    · subst hindex
      rw [List.lookup_cons_self, List.getElem?_append_right (by omega)]
      have hlast : w.deliveryIndex - 1 - (labels sent).length = 0 := by omega
      rw [hlast]
      simp only [List.getElem?_cons_zero, Option.some.injEq, Prod.mk.injEq, true_and]
      constructor
      · intro heq
        exact ⟨by omega, heq⟩
      · exact fun heq => heq.2
    · have hother : (index == w.deliveryIndex) = false := by simpa using hindex
      rw [List.lookup_cons, hother, h.recorded, WasSent]
      by_cases hbefore : index - 1 < (labels sent).length
      · rw [List.getElem?_append_left hbefore]
      · constructor
        · intro hsent
          obtain ⟨hlt, -⟩ := List.getElem?_eq_some_iff.mp hsent.2
          exact absurd hlt hbefore
        · intro hsent
          obtain ⟨hlt, -⟩ := List.getElem?_eq_some_iff.mp hsent.2
          rw [List.length_append, List.length_singleton] at hlt
          omega
  · intro label hmem
    rw [hlabels] at hmem
    rcases List.mem_append.mp hmem with hold | hnew
    · exact h.valid label hold
    · rw [List.mem_singleton.mp hnew]
      exact hvalid

end Window

/-! ### What a session promises -/

/-- A kind of session: its machine, and what the contract reads of it. A step `takes` the
control inputs it drains, and `closes` a session for a reason of its own. An `ordinary` step
goes on with the session and sends what it numbers. -/
structure SessionKind (σ ι S : Type) where
  cap : Nat
  step : σ → ι → σ
  session : σ → S
  sent : σ → List SessionDelivery
  idle : σ → Prop
  window : S → Window
  apply : S → SessionControl → S
  takes : σ → ι → Option (List SessionControl)
  closes : σ → ι → Option SessionDelivery
  ordinary : σ → ι → Prop

namespace SessionKind

variable {σ ι S : Type} (k : SessionKind σ ι S)

/-- The window once these inputs have been applied. -/
def after (s : S) (controls : List SessionControl) : Window :=
  k.window (controls.foldl k.apply s)

def Live (m : σ) : Prop :=
  (k.window (k.session m)).ended = false ∧ ∀ delivery ∈ k.sent m, delivery.label ≠ none

/-- The next poll says that the session has ended. -/
def Over (m : σ) : Prop :=
  (k.window (k.session m)).ended = true ∧ (k.window (k.session m)).terminal = none ∧ k.idle m

/-- The first input that ends the session, with the delivery kept for it: none for a client
that is gone. -/
def FirstCause (s : S) (inbox : List SessionControl) (cause : Option SessionDelivery) : Prop :=
  ∃ earlier control later, inbox = earlier ++ control :: later ∧
    (k.after s earlier).ended = false ∧
      k.after s (earlier ++ [control]) = (k.after s earlier).close cause ∧
        (∀ delivery ∈ cause, delivery.label = none) ∧ (cause = none ↔ control = .disconnected)

def EndsWith (m : σ) (i : ι) (cause : Option SessionDelivery) : Prop :=
  (∃ inbox, k.takes m i = some inbox ∧ k.FirstCause (k.session m) inbox cause) ∨
    (∃ delivery, k.closes m i = some delivery ∧ delivery.label = none ∧ cause = some delivery)

/-- The window of a state, and its answer to an acknowledgement behind any other inputs. -/
structure Answers (m : σ) : Prop where
  acked : (k.window (k.session m)).lastAcked ≤ (k.window (k.session m)).lastSent
  room : (k.window (k.session m)).lastSent - (k.window (k.session m)).lastAcked ≤ k.cap
  acks : ∀ earlier index cursor, (k.after (k.session m) earlier).ended = false →
    ((k.after (k.session m) (earlier ++ [.ack index cursor])).ended = false ↔
      WasSent (k.sent m) index cursor ∧ (k.after (k.session m) earlier).lastAcked ≤ index)

/-- The state a run has reached, and one terminal delivery for the first reason to end. -/
structure Contract (start : σ) (steps : List ι) : Prop extends
    k.Answers (run k.step start steps) where
  once : k.Live (run k.step start steps) ∨ ∃ before i after cause,
    steps = before ++ i :: after ∧ k.Live (run k.step start before) ∧
      k.EndsWith (run k.step start before) i cause ∧
        k.sent (run k.step start steps) =
          k.sent (run k.step start before) ++ cause.toList ∧
        k.Over (run k.step start steps)

/-- No step closes the session for a reason of its own, and the control inputs behind one that
ends it are acknowledgements it would have accepted. -/
def Orderly (m : σ) (i : ι) : Prop :=
  k.ordinary m i ∧ k.closes m i = none ∧
    ∀ inbox ∈ k.takes m i, (k.window (k.session m)).tidy inbox = true

/-- Two terminal deliveries break the contract. -/
theorem Contract.terminals_le {start : σ} {steps : List ι} (h : k.Contract start steps) :
    ((k.sent (run k.step start steps)).filter fun delivery => delivery.label.isNone).length
      ≤ 1 := by
  have hnone {sent : List SessionDelivery} (hlive : ∀ d ∈ sent, d.label ≠ none) :
      (sent.filter fun delivery => delivery.label.isNone) = [] := by
    simpa [List.filter_eq_nil_iff, ← Option.isSome_iff_ne_none, Option.isSome_iff_exists,
      Option.ne_none_iff_exists'] using hlive
  rcases h.once with hlive | ⟨before, i, after, cause, -, hbefore, -, hsent, -⟩
  · rw [hnone hlive.2]
    exact Nat.zero_le 1
  · rw [hsent, List.filter_append, hnone hbefore.2, List.nil_append]
    apply le_trans (List.length_filter_le _ _)
    cases cause with
    | none => exact Nat.zero_le 1
    | some delivery => exact le_refl 1

/-! ### Kinds that keep it -/

/-- All that an orderly step of a live session can do. -/
inductive Moves (valid : RuntimeCursor → Prop) (m : σ) (i : ι) (next : σ) : Prop
  | quiet (hwindow : k.window (k.session next) = k.window (k.session m))
      (hsent : k.sent next = k.sent m)
  | takes (inbox : List SessionControl) (htakes : k.takes m i = some inbox)
      (hwindow : k.window (k.session next) = (k.after (k.session m) inbox).clear)
      (hsent : k.sent next = k.sent m ++ (k.after (k.session m) inbox).terminal.toList)
      (hidle : (k.after (k.session m) inbox).ended = true → k.idle next)
  | sends (delivery : SessionDelivery) (cursor : RuntimeCursor)
      (hlabel : delivery.label =
        some (Fin.ofNat (2 ^ 64) (k.window (k.session m)).deliveryIndex, cursor))
      (hvalid : valid cursor)
      (hroom : (k.window (k.session m)).lastSent - (k.window (k.session m)).lastAcked < k.cap)
      (hwindow : k.window (k.session next) = (k.window (k.session m)).send cursor)
      (hsent : k.sent next = k.sent m ++ [delivery])

structure Lawful (valid : RuntimeCursor → Prop) : Prop where
  accepted : ∀ s control,
    (∀ index cursor, (k.window s).sentCursors.lookup index = some cursor →
      0 < index ∧ index ≤ (k.window s).lastSent ∧ valid cursor) →
    (k.window s).accepts control = true →
      k.window (k.apply s control) = (k.window s).acked control
  refused : ∀ s control, (k.window s).accepts control = false →
    ∃ cause, (∀ delivery ∈ cause, delivery.label = none) ∧
      (cause = none ↔ control = .disconnected) ∧
        k.window (k.apply s control) = (k.window s).close cause
  moves : ∀ m i, (k.window (k.session m)).ended = false →
    (k.window (k.session m)).terminal = none → k.Orderly m i →
      k.Moves valid m i (k.step m i)
  idles : ∀ m i, k.Over m → k.ordinary m i →
    k.session (k.step m i) = k.session m ∧ k.sent (k.step m i) = k.sent m ∧
      k.idle (k.step m i)

namespace Lawful

variable {k} {valid : RuntimeCursor → Prop} {sent : List SessionDelivery}

theorem kept_apply (hk : k.Lawful valid) {s : S} (h : (k.window s).Kept k.cap valid sent)
    (control : SessionControl) : (k.window (k.apply s control)).Kept k.cap valid sent := by
  cases haccepts : (k.window s).accepts control with
  | true =>
      rw [hk.accepted s control (fun _ _ => h.bounds) haccepts]
      exact h.ack haccepts
  | false =>
      obtain ⟨cause, -, -, hclose⟩ := hk.refused s control haccepts
      rw [hclose]
      exact h.close cause

theorem kept_after (hk : k.Lawful valid) {s : S} (h : (k.window s).Kept k.cap valid sent)
    (controls : List SessionControl) : (k.after s controls).Kept k.cap valid sent := by
  induction controls generalizing s with
  | nil => exact h
  | cons control rest ih => exact ih (hk.kept_apply h control)

/-- Accepted acknowledgements change no more than the last acknowledged index. -/
theorem after_onlyAcks (hk : k.Lawful valid) {s : S} (h : (k.window s).Kept k.cap valid sent)
    {controls : List SessionControl} (hacks : (k.window s).onlyAcks controls = true) :
    (k.after s controls).ended = (k.window s).ended ∧
      (k.after s controls).terminal = (k.window s).terminal := by
  induction controls generalizing s with
  | nil => exact ⟨rfl, rfl⟩
  | cons control rest ih =>
      obtain ⟨haccepts, hrest⟩ := (Bool.and_eq_true _ _).mp hacks
      have hwindow := hk.accepted s control (fun _ _ => h.bounds) haccepts
      have hsame : ((k.window s).acked control).ended = (k.window s).ended ∧
          ((k.window s).acked control).terminal = (k.window s).terminal := by
        cases control with
        | ack index cursor => exact ⟨rfl, rfl⟩
        | cancel => exact ⟨rfl, rfl⟩
        | disconnected => exact ⟨rfl, rfl⟩
        | malformed => exact ⟨rfl, rfl⟩
      rw [← hwindow] at hrest hsame
      obtain ⟨hended, hterminal⟩ := ih (hk.kept_apply h control) hrest
      exact ⟨hended.trans hsame.1, hterminal.trans hsame.2⟩

/-- A tidy drain leaves the session live, or ended for the first cause. -/
theorem after_tidy (hk : k.Lawful valid) {s : S} (h : (k.window s).Kept k.cap valid sent)
    (hlive : (k.window s).ended = false) {inbox : List SessionControl}
    (htidy : (k.window s).tidy inbox = true) :
    (k.after s inbox).ended = false ∨ k.FirstCause s inbox (k.after s inbox).terminal := by
  induction inbox generalizing s with
  | nil => exact .inl hlive
  | cons control rest ih =>
      rw [Window.tidy] at htidy
      cases haccepts : (k.window s).accepts control with
      | true =>
          rw [if_pos haccepts, ← hk.accepted s control (fun _ _ => h.bounds) haccepts] at htidy
          have hnext : (k.window (k.apply s control)).ended = false := by
            rw [hk.accepted s control (fun _ _ => h.bounds) haccepts]
            cases control with
            | ack index cursor => exact hlive
            | cancel => cases haccepts
            | disconnected => cases haccepts
            | malformed => cases haccepts
          rcases ih (hk.kept_apply h control) hnext htidy with
            hrest | ⟨earlier, last, later, rfl, hcause⟩
          · exact .inl hrest
          · exact .inr ⟨control :: earlier, last, later, rfl, hcause⟩
      | false =>
          rw [if_neg (by simp [haccepts])] at htidy
          obtain ⟨cause, hlabel, hgone, hclose⟩ := hk.refused s control haccepts
          have hacks : (k.window (k.apply s control)).onlyAcks rest = true := by
            rw [hclose]
            exact Window.onlyAcks_close htidy cause
          obtain ⟨-, hterminal⟩ := hk.after_onlyAcks (hk.kept_apply h control) hacks
          have hcause : (k.after s (control :: rest)).terminal = cause := by
            rw [hclose] at hterminal
            exact hterminal
          rw [hcause]
          exact .inr ⟨[], control, rest, rfl, hlive, hclose, hlabel, hgone⟩

/-- A live session whose window agrees with what was sent. -/
def Sound (k : SessionKind σ ι S) (valid : RuntimeCursor → Prop) (m : σ) : Prop :=
  (k.window (k.session m)).Kept k.cap valid (k.sent m) ∧ k.Live m

/-- The session ended in this step and has sent its last delivery. -/
def Closed (k : SessionKind σ ι S) (valid : RuntimeCursor → Prop) (m : σ) (i : ι) (t : σ) :
    Prop :=
  (k.window (k.session t)).Kept k.cap valid (k.sent t) ∧
    ∃ cause, k.EndsWith m i cause ∧ k.sent t = k.sent m ++ cause.toList ∧ k.Over t

theorem sound_step (hk : k.Lawful valid) {m : σ} {i : ι} (h : Sound k valid m)
    (horderly : k.Orderly m i) :
    Sound k valid (k.step m i) ∨ Closed k valid m i (k.step m i) := by
  obtain ⟨hkept, hlive, hsent⟩ := h
  cases hk.moves m i hlive (hkept.live hlive) horderly with
  | quiet hwindow hsame =>
      left
      rw [Sound, Live, hwindow, hsame]
      exact ⟨hkept, hlive, hsent⟩
  | takes inbox htakes hwindow hlast hidle =>
      have hdrained := hk.kept_after hkept inbox
      cases hended : (k.after (k.session m) inbox).ended with
      | false =>
          left
          rw [hdrained.live hended, Option.toList_none, List.append_nil] at hlast
          rw [Sound, Live, hwindow, hlast]
          exact ⟨hdrained.clear, hended, hsent⟩
      | true =>
          right
          rcases hk.after_tidy (s := k.session m) hkept hlive (horderly.2.2 inbox htakes) with
            hnot | hcause
          · rw [hended] at hnot
            cases hnot
          · rw [Closed, Over, hwindow, hlast]
            obtain ⟨-, -, -, -, -, -, hlabel, -⟩ := id hcause
            refine ⟨hdrained.clear.terminals (by simpa using hlabel), _,
              .inl ⟨inbox, htakes, hcause⟩, rfl, hended, rfl, hidle hended⟩
  | sends delivery cursor hlabel hvalid hroom hwindow hnext =>
      left
      rw [Sound, Live, hwindow, hnext]
      refine ⟨hkept.sending hroom hvalid hlabel, hlive, ?_⟩
      intro other hother
      rcases List.mem_append.mp hother with hold | hnew
      · exact hsent other hold
      · rw [List.mem_singleton.mp hnew, hlabel]
        exact Option.some_ne_none _

theorem closed_step (hk : k.Lawful valid) {m t : σ} {i j : ι} (h : Closed k valid m i t)
    (horderly : k.Orderly t j) : Closed k valid m i (k.step t j) := by
  obtain ⟨hkept, cause, hends, hsent, hover⟩ := h
  obtain ⟨hsession, hsame, hidle⟩ := hk.idles t j hover horderly.1
  rw [Closed, Over, hsession, hsame]
  exact ⟨hkept, cause, hends, hsent, hover.1, hover.2.1, hidle⟩

theorem answers (hk : k.Lawful valid) {m : σ}
    (h : (k.window (k.session m)).Kept k.cap valid (k.sent m)) : k.Answers m := by
  refine ⟨h.acked, h.room, ?_⟩
  intro earlier index cursor hlive
  have hearlier : (k.after (k.session m) earlier).Kept k.cap valid (k.sent m) :=
    hk.kept_after h earlier
  have hsnoc : k.after (k.session m) (earlier ++ [.ack index cursor]) =
      k.window (k.apply (earlier.foldl k.apply (k.session m)) (.ack index cursor)) := by
    rw [after, List.foldl_append]
    rfl
  rw [← hearlier.recorded]
  cases haccepts : (k.after (k.session m) earlier).accepts (.ack index cursor) with
  | true =>
      rw [hsnoc, hk.accepted _ _ (fun _ _ => hearlier.bounds) haccepts]
      simp only [Window.accepts, Bool.and_eq_true, decide_eq_true_eq] at haccepts
      exact ⟨fun _ => haccepts, fun _ => hlive⟩
  | false =>
      obtain ⟨cause, -, -, hclose⟩ := hk.refused _ _ haccepts
      rw [hsnoc, hclose]
      constructor
      · intro hended
        cases hended
      · rintro ⟨hlookup, hforward⟩
        rw [Window.accepts, hlookup] at haccepts
        simp [hforward] at haccepts

theorem contract (hk : k.Lawful valid) {start : σ} {steps : List ι}
    (hkept : (k.window (k.session start)).Kept k.cap valid [])
    (hlive : (k.window (k.session start)).ended = false) (hsent : k.sent start = [])
    (horderly : Guarded k.step k.Orderly start steps) : k.Contract start steps := by
  have hstart : Sound k valid start := by
    rw [Sound, Live, hsent]
    exact ⟨hkept, hlive, by simp⟩
  rcases run_until (fun _ _ h hi => hk.sound_step h hi) (fun _ _ _ _ h hj => hk.closed_step h hj)
    steps start hstart horderly with
      h | ⟨before, i, later, heq, hbefore, hreached, cause, hends, hlast, hover⟩
  · exact ⟨hk.answers h.1, .inl h.2⟩
  · exact ⟨hk.answers hreached,
      .inr ⟨before, i, later, cause, heq, hbefore.2, hends, hlast, hover⟩⟩

end Lawful

end SessionKind

/-! ### Sessions that read the store -/

def StreamSession.window (s : StreamSession) : Window :=
  ⟨s.deliveryIndex, s.lastSentDeliveryIndex, s.lastAckedDeliveryIndex, s.sentCursors,
    s.phase = .ended, s.terminal⟩

section Streams

variable (route : StreamRoute)

/-- A page that finds a receipt it cannot decode, or a full window before a delivery. -/
def pageEnd (unreadable : StreamEntry → Bool) (m : StreamMachine) : Option SessionDelivery :=
  match (m.feed.queryEntriesAfter route.source.region m.session.scanAfter route.pageSize).find?
      (stopsAt route unreadable) with
  | none => none
  | some e =>
      if route.source.readsFirst && unreadable e then none
      else if classify route.reader route.source e = .undecodable then
        some (m.session.receiptDecodeFailedError route)
      else if route.queueCap ≤ m.session.inFlight then some (m.session.slowConsumerError route)
      else none

/-- A full window before a watermark. -/
def watermarkEnd (m : StreamMachine) : Option SessionDelivery :=
  if (route.source.scans && !m.session.lastQueryReturnedEmpty) ||
      m.feed.frontier.globalSequence ≤ m.session.lastWatermarkedVisibleSeq then none
  else if route.queueCap ≤ m.session.inFlight then some (m.session.slowConsumerError route)
  else none

def streamTakes (m : StreamMachine) : StreamStep → Option (List SessionControl)
  | .poll => if m.stage = .idle then some m.inbox else none
  | .wake notified => if m.stage = .waiting ∧ notified = true then some m.inbox else none
  | _ => none

def streamCloses (m : StreamMachine) : StreamStep → Option SessionDelivery
  | .page unreadable =>
      match m.stage with
      | .querying _ => pageEnd route unreadable m
      | _ => none
  | .frontier =>
      match m.stage with
      | .readingFrontier _ => watermarkEnd route m
      | _ => none
  | _ => none

/-- A client that connects again gets another session. -/
def StreamStep.sameSession : StreamStep → Bool
  | .reconnect _ => false
  | _ => true

def streamKind : SessionKind StreamMachine StreamStep StreamSession where
  cap := route.queueCap
  step := streamStep route
  session := StreamMachine.session
  sent := StreamMachine.sent
  idle m := m.stage = .idle
  window := StreamSession.window
  apply := StreamSession.applyControl route
  takes := streamTakes
  closes := streamCloses route
  ordinary _ i := i.sameSession = true

def StreamRoute.ValidCursor (cursor : RuntimeCursor) : Prop :=
  ∃ decoded, StreamCursor.decode route.cursors.format cursor = .ok decoded ∧
    decoded.validateRoute route.cursors = .ok ()

variable {route}

theorem StreamRoute.validCursor (p w : U64) :
    route.ValidCursor (route.runtimeCursor (.afterGlobalSequence route.cursors p w)) :=
  have hroute := StreamCursor.ofRoute_afterGlobalSequence route.cursors p w
  ⟨_, StreamCursor.decode_encode hroute, StreamCursor.ofRoute_validateRoute hroute⟩

theorem StreamSession.applyControl_accepted {s : StreamSession}
    (hbounds : ∀ index cursor, s.window.sentCursors.lookup index = some cursor →
      0 < index ∧ index ≤ s.window.lastSent ∧ route.ValidCursor cursor)
    (haccepts : s.window.accepts control = true) :
    (s.applyControl route control).window = s.window.acked control := by
  cases control with
  | ack index cursor =>
      simp only [Window.accepts, Bool.and_eq_true, decide_eq_true_eq] at haccepts
      obtain ⟨hlookup, hforward⟩ := haccepts
      obtain ⟨hpos, hsent, decoded, hdecoded, hbound⟩ := hbounds index cursor hlookup
      have hrange : ¬(index = 0 ∨ s.lastSentDeliveryIndex < index) :=
        not_or.mpr ⟨hpos.ne', Nat.not_lt.mpr hsent⟩
      have hexpected : s.sentCursor index = some cursor := hlookup
      have hregressed : ¬index < s.lastAckedDeliveryIndex := Nat.not_lt.mpr hforward
      simp only [applyControl, applyAck, if_neg hrange, hdecoded, hbound, hexpected, ne_eq,
        not_true_eq_false, if_false, if_neg hregressed]
      rfl
  | cancel => cases haccepts
  | disconnected => cases haccepts
  | malformed => cases haccepts

theorem StreamSession.applyControl_refused {s : StreamSession}
    (hrefuses : s.window.accepts control = false) :
    ∃ cause, (∀ delivery ∈ cause, delivery.label = none) ∧
      (cause = none ↔ control = .disconnected) ∧
        (s.applyControl route control).window = s.window.close cause := by
  cases control with
  | ack index cursor =>
      rcases applyAck_cases route s index cursor with ⟨code, message, heq⟩ | ⟨decoded, hack, -⟩
      · exact ⟨some (s.errorDelivery route code message), by simp [errorDelivery,
          SessionDelivery.label], by simp, congrArg StreamSession.window heq⟩
      · have hlookup : s.window.sentCursors.lookup index = some cursor := hack.recorded
        have hforward : s.window.lastAcked ≤ index := hack.forward
        simp [Window.accepts, hlookup, hforward] at hrefuses
  | cancel => exact ⟨some (s.clientCancelEnd route), by simp [clientCancelEnd,
      SessionDelivery.label], by simp, rfl⟩
  | disconnected => exact ⟨none, by simp, by simp, rfl⟩
  | malformed => exact ⟨some (s.malformedControlError route), by simp [malformedControlError,
      errorDelivery, SessionDelivery.label], by simp, rfl⟩

/-- A page without an entry to stop at, or the first such entry. -/
theorem tryDeliver_page (unreadable : StreamEntry → Bool) (feed : StoreFeed)
    (s : StreamSession) :
    (∃ s' result, tryDeliver route unreadable feed s = (s', result) ∧ s'.window = s.window ∧
      (result = .passed ∨ result = .exhausted)) ∨
    ∃ e s', (feed.queryEntriesAfter route.source.region s.scanAfter route.pageSize).find?
        (stopsAt route unreadable) = some e ∧ s'.window = s.window ∧
      tryDeliver route unreadable feed s = stopAt route unreadable s' e := by
  unfold tryDeliver tryDeliverMatching tryDeliverPage
  cases hpage : feed.queryEntriesAfter route.source.region s.scanAfter route.pageSize with
  | nil =>
      left
      split_ifs
      · exact ⟨_, _, rfl, rfl, .inr rfl⟩
      · exact ⟨_, _, rfl, rfl, .inr rfl⟩
  | cons first rest =>
      split_ifs with hscans
      · simp only [scanEntries_eq]
        cases hfind : (first :: rest).find? (stopsAt route unreadable) with
        | none =>
            have hsame : (passOver (first :: rest)
                { s with lastQueryReturnedEmpty := false }).window = s.window := by
              unfold passOver
              split
              · rfl
              · rfl
            exact .inl ⟨_, _, rfl, hsame, .inl rfl⟩
        | some e =>
            let stopped : StreamSession :=
              { s with scanAfter := some e.globalSequence, lastQueryReturnedEmpty := false }
            exact .inr ⟨e, stopped, rfl, rfl, rfl⟩
      · obtain ⟨category, hsource⟩ : ∃ category, route.source = .eventCategory category := by
          cases hsource : route.source with
          | eventCategory category => exact ⟨category, rfl⟩
          | receiptStream receiptKind => simp [hsource, StreamSource.scans] at hscans
          | entityStream entity scope => simp [hsource, StreamSource.scans] at hscans
        refine .inr ⟨first, s, ?_, rfl, ?_⟩
        · simp [stopsAt, hsource, classify]
        · simp [stopAt, hsource, classify, StreamSource.readsFirst]

theorem takeControl_leaves (woken : Bool) (m : StreamMachine) :
    (takeControl route woken m).session.window =
        (m.session.drainControl route m.inbox).window.clear ∧
      (takeControl route woken m).sent =
          m.sent ++ (m.session.drainControl route m.inbox).terminal.toList ∧
        ((m.session.drainControl route m.inbox).window.ended = true →
          (takeControl route woken m).stage = .idle) := by
  unfold takeControl StreamMachine.orEnded
  dsimp only
  cases hcause : (m.session.drainControl route m.inbox).terminal with
  | some delivery => exact ⟨rfl, rfl, fun _ => rfl⟩
  | none =>
      dsimp only
      split_ifs with hended
      · exact ⟨by simp [StreamSession.window, Window.clear, hcause], by simp, fun _ => rfl⟩
      · refine ⟨by simp [StreamSession.window, Window.clear, hcause], by simp, ?_⟩
        intro h
        exact absurd (of_decide_eq_true h) hended

theorem streamKind_takeControl {i : StreamStep} (woken : Bool)
    (htakes : streamTakes m i = some m.inbox) :
    (streamKind route).Moves route.ValidCursor m i (takeControl route woken m) := by
  obtain ⟨hwindow, hsent, hidle⟩ := @takeControl_leaves route woken m
  exact .takes m.inbox htakes hwindow hsent hidle

/-- A page query of a live session that does not close it. -/
theorem streamKind_page {woken : Bool} (unreadable : StreamEntry → Bool)
    (hstage : m.stage = .querying woken) (hopen : streamCloses route m (.page unreadable) = none) :
    (streamKind route).Moves route.ValidCursor m (.page unreadable)
      (pageStep route unreadable woken m) := by
  simp only [streamCloses, hstage, pageEnd] at hopen
  unfold pageStep
  rcases @tryDeliver_page route unreadable m.feed m.session with
    ⟨s', result, heq, hsame, rfl | rfl⟩ | ⟨e, s', hfind, hsame, heq⟩
  · rw [heq]
    exact .quiet hsame rfl
  · rw [heq]
    unfold afterPage
    dsimp only
    split_ifs
    · exact .quiet hsame rfl
    · exact .quiet hsame rfl
  · rw [hfind] at hopen
    dsimp only at hopen
    have hfull : s'.inFlight = m.session.inFlight :=
      congrArg (fun w : Window => w.lastSent - w.lastAcked) hsame
    rw [heq, stopAt]
    split_ifs at hopen ⊢ with hread hclass hroom
    · exact .quiet hsame rfl
    · rw [deliverEntry, if_neg (by rw [hfull]; exact hroom)]
      split_ifs
      · exact .quiet hsame rfl
      · apply SessionKind.Moves.sends (s'.eventDelivery route e) _ ?_
          (route.validCursor e.globalSequence e.wallMs) ?_ ?_ rfl
        · exact congrArg (fun w : Window => some (Fin.ofNat (2 ^ 64) w.deliveryIndex, _)) hsame
        · exact Nat.not_le.mp hroom
        · exact congrArg (fun w : Window => w.send _) hsame

theorem streamKind_frontier {woken : Bool} (hlive : m.session.window.ended = false)
    (hstage : m.stage = .readingFrontier woken) (hopen : streamCloses route m .frontier = none) :
    (streamKind route).Moves route.ValidCursor m .frontier (frontierStep route woken m) := by
  have hphase (s : StreamSession) (hs : s.window.ended = false) :
      (afterFirstPass woken s).window = s.window := by
    unfold afterFirstPass
    split_ifs
    · rfl
    · unfold StreamSession.window at hs ⊢
      simp only at hs
      simp [hs]
  simp only [streamCloses, hstage, watermarkEnd] at hopen
  unfold frontierStep maybeEmitWatermark
  by_cases hempty : (route.source.scans && !m.session.lastQueryReturnedEmpty) = true
  · rw [if_pos hempty]
    exact .quiet (hphase m.session hlive) rfl
  · rw [if_neg hempty]
    by_cases hseen : m.feed.frontier.globalSequence ≤ m.session.lastWatermarkedVisibleSeq
    · rw [if_pos hseen]
      exact .quiet (hphase m.session hlive) rfl
    · rw [if_neg (by simp [hempty, hseen])] at hopen
      have hroom : ¬route.queueCap ≤ m.session.inFlight := by
        intro hfull
        rw [if_pos hfull] at hopen
        cases hopen
      rw [if_neg hseen, if_neg hroom]
      exact .sends (m.session.watermarkDelivery route m.feed.frontier) _ rfl
        (route.validCursor _ _) (Nat.not_le.mp hroom) (hphase _ hlive) rfl

theorem streamKind_moves {i : StreamStep} (hlive : m.session.window.ended = false)
    (hterminal : m.session.terminal = none) (horderly : (streamKind route).Orderly m i) :
    (streamKind route).Moves route.ValidCursor m i (streamStep route m i) := by
  have hphase : m.session.phase ≠ .ended := of_decide_eq_false hlive
  cases i with
  | publish entries last => exact .quiet rfl rfl
  | settle => exact .quiet rfl rfl
  | control input => exact .quiet rfl rfl
  | reconnect resumeCursor => cases horderly.1
  | poll =>
      rw [streamStep]
      split
      next hstage =>
        simp only [StreamMachine.orEnded, hterminal, if_neg hphase]
        exact streamKind_takeControl false (if_pos hstage)
      next => exact .quiet rfl rfl
  | page unreadable =>
      rw [streamStep]
      split
      next woken hstage => exact streamKind_page unreadable hstage horderly.2.1
      next => exact .quiet rfl rfl
  | frontier =>
      rw [streamStep]
      split
      next woken hstage => exact streamKind_frontier hlive hstage horderly.2.1
      next => exact .quiet rfl rfl
  | wake notified =>
      rw [streamStep]
      split
      next hstage =>
        split_ifs with hnotified
        · exact streamKind_takeControl true (if_pos ⟨hstage, hnotified⟩)
        · exact .quiet rfl rfl
      next => exact .quiet rfl rfl

theorem streamKind_lawful : (streamKind route).Lawful route.ValidCursor where
  accepted _ _ := StreamSession.applyControl_accepted
  refused _ _ := StreamSession.applyControl_refused
  moves _ _ := streamKind_moves
  idles m i := by
    rintro ⟨hended, hterminal, hidle⟩ hordinary
    have hphase : m.session.phase = .ended := of_decide_eq_true hended
    have hnone : m.session.terminal = none := hterminal
    have hstage : m.stage = .idle := hidle
    cases i with
    | reconnect resumeCursor => cases hordinary
    | publish entries last => exact ⟨rfl, rfl, hidle⟩
    | settle => exact ⟨rfl, rfl, hidle⟩
    | control input => exact ⟨rfl, rfl, hidle⟩
    | poll => simp [streamKind, streamStep, hstage, StreamMachine.orEnded, hnone, hphase]
    | page unreadable => simp [streamKind, streamStep, hstage]
    | frontier => simp [streamKind, streamStep, hstage]
    | wake notified => simp [streamKind, streamStep, hstage]

end Streams

/-! ### Sessions that follow a watcher -/

def UpdateSession.window (s : UpdateSession) : Window :=
  ⟨s.deliveryIndex, s.lastSentDeliveryIndex, s.lastAckedDeliveryIndex, s.sentCursors, s.ended,
    s.terminal⟩

section Updates

variable {T : Type} (route : UpdateRoute T)

/-- An update that the client has not seen lets the poll take its control inputs. -/
def updateTakes (m : UpdateMachine T) (i : UpdateStep T) : Option (List SessionControl) :=
  match m.stage, i with
  | .idle, .poll => some m.inbox
  | .receiving, .receive (.update generation _) =>
      if generation ≤ m.session.resumeAfterGeneration then none else some m.inbox
  | _, _ => none

/-- A watcher that fails or is gone, and a full window before a delivery. -/
def updateCloses (m : UpdateMachine T) (i : UpdateStep T) : Option SessionDelivery :=
  match m.stage, i with
  | .receiving, .receive (.failed message) =>
      some (m.session.errorDelivery route "cursor_invalid" message)
  | .receiving, .receive .disconnected =>
      some (m.session.errorDelivery route "cursor_invalid" route.source.bridgeDisconnected)
  | .delivering _ _, .deliver =>
      if route.queueCap ≤ m.session.inFlight then some (m.session.slowConsumerError route)
      else none
  | _, _ => none

/-- An envelope that does not encode takes its index all the same. -/
def encodes (m : UpdateMachine T) (i : UpdateStep T) : Bool :=
  match m.stage, i with
  | .delivering generation (some projected), .deliver =>
      (route.envelope generation projected).isSome
  | _, _ => true

def updateKind : SessionKind (UpdateMachine T) (UpdateStep T) UpdateSession where
  cap := route.queueCap
  step := updateStep route
  session := UpdateMachine.session
  sent := UpdateMachine.sent
  idle m := m.stage = .idle
  window := UpdateSession.window
  apply := UpdateSession.applyControl route
  takes := updateTakes
  closes := updateCloses route
  ordinary m i := encodes route m i = true

def UpdateRoute.ValidCursor (cursor : RuntimeCursor) : Prop :=
  ∃ decoded, GenerationCursor.decode route.source cursor = .ok decoded ∧
    decoded.validateRoute route.source route.binding = .ok ()

variable {route}

theorem UpdateRoute.validCursor (generation : U64) :
    route.ValidCursor (route.runtimeCursor (.afterEntityGeneration route.binding generation)) :=
  have hbinding := GenerationCursor.ofBinding_afterEntityGeneration route.binding generation
  ⟨_, GenerationCursor.decode_encode hbinding, GenerationCursor.ofBinding_validateRoute hbinding⟩

theorem UpdateSession.applyControl_accepted
    (hbounds : ∀ index cursor, s.window.sentCursors.lookup index = some cursor →
      0 < index ∧ index ≤ s.window.lastSent ∧ route.ValidCursor cursor)
    (haccepts : s.window.accepts control = true) :
    (s.applyControl route control).window = s.window.acked control := by
  cases control with
  | ack index cursor =>
      simp only [Window.accepts, Bool.and_eq_true, decide_eq_true_eq] at haccepts
      obtain ⟨hlookup, hforward⟩ := haccepts
      obtain ⟨hpos, hsent, decoded, hdecoded, hbound⟩ := hbounds index cursor hlookup
      have hrange : ¬(index = 0 ∨ s.lastSentDeliveryIndex < index) :=
        not_or.mpr ⟨hpos.ne', Nat.not_lt.mpr hsent⟩
      have hexpected : s.sentCursors.lookup index = some cursor := hlookup
      have hregressed : ¬index < s.lastAckedDeliveryIndex := Nat.not_lt.mpr hforward
      simp only [applyControl, applyAck, if_neg hrange, hdecoded, hbound, hexpected, ne_eq,
        not_true_eq_false, if_false, if_neg hregressed]
      rfl
  | cancel => cases haccepts
  | disconnected => cases haccepts
  | malformed => cases haccepts

theorem UpdateSession.ackInvalidError_label (s : UpdateSession) (reason : String) :
    (s.ackInvalidError route reason).label = none := by
  unfold ackInvalidError
  split
  · rfl
  · rfl

/-- An acknowledgement ends the session, or is accepted. -/
theorem UpdateSession.applyAck_cases (s : UpdateSession) (index : Nat)
    (cursor : RuntimeCursor) :
    (∃ delivery, delivery.label = none ∧ s.applyAck route index cursor = s.endWith delivery) ∨
      s.window.accepts (.ack index cursor) = true := by
  unfold applyAck
  split
  · exact .inl ⟨_, s.ackInvalidError_label _, rfl⟩
  split
  · exact .inl ⟨_, s.ackInvalidError_label _, rfl⟩
  split
  · exact .inl ⟨_, rfl, rfl⟩
  split
  · exact .inl ⟨_, s.ackInvalidError_label _, rfl⟩
  next expected hexpected =>
    split_ifs with hother hregressed
    · exact .inl ⟨_, s.ackInvalidError_label _, rfl⟩
    · exact .inl ⟨_, s.ackInvalidError_label _, rfl⟩
    · rw [not_not] at hother
      subst hother
      have hlookup : s.window.sentCursors.lookup index = some expected := hexpected
      have hforward : s.window.lastAcked ≤ index := Nat.not_lt.mp hregressed
      exact .inr (by simp [Window.accepts, hlookup, hforward])

theorem UpdateSession.applyControl_refused (hrefuses : s.window.accepts control = false) :
    ∃ cause, (∀ delivery ∈ cause, delivery.label = none) ∧
      (cause = none ↔ control = .disconnected) ∧
        (s.applyControl route control).window = s.window.close cause := by
  cases control with
  | ack index cursor =>
      rcases @UpdateSession.applyAck_cases _ route s index cursor with
        ⟨delivery, hlabel, heq⟩ | haccepts
      · exact ⟨some delivery, by simpa using hlabel, by simp, congrArg UpdateSession.window heq⟩
      · rw [haccepts] at hrefuses
        cases hrefuses
  | cancel => exact ⟨some (s.clientCancelEnd route), by simp [clientCancelEnd,
      SessionDelivery.label], by simp, rfl⟩
  | disconnected => exact ⟨none, by simp, by simp, rfl⟩
  | malformed => exact ⟨some (s.malformedControlError route), by simp [malformedControlError,
      errorDelivery, SessionDelivery.label], by simp, rfl⟩

theorem updateKind_takeControl {m : UpdateMachine T} {i : UpdateStep T} (stage : UpdateStage T)
    (htakes : updateTakes m i = some m.inbox) :
    (updateKind route).Moves route.ValidCursor m i (m.takeControl route stage) := by
  have hleaves : (m.takeControl route stage).session.window =
        (m.session.drainControl route m.inbox).window.clear ∧
      (m.takeControl route stage).sent =
          m.sent ++ (m.session.drainControl route m.inbox).terminal.toList ∧
        ((m.session.drainControl route m.inbox).ended = true →
          (m.takeControl route stage).stage = .idle) := by
    unfold UpdateMachine.takeControl UpdateMachine.orEnded
    dsimp only
    cases hcause : (m.session.drainControl route m.inbox).terminal with
    | some delivery => exact ⟨rfl, rfl, fun _ => rfl⟩
    | none =>
        dsimp only
        split_ifs with hended
        · exact ⟨by simp [UpdateSession.window, Window.clear, hcause], by simp, fun _ => rfl⟩
        · exact ⟨by simp [UpdateSession.window, Window.clear, hcause], by simp,
            fun h => absurd h hended⟩
  obtain ⟨hwindow, hsent, hidle⟩ := hleaves
  exact .takes m.inbox htakes hwindow hsent hidle

/-- The delivery of an update carries its index and its cursor. -/
theorem updateDelivery_label {generation : U64} {state : Option T} {delivery : SessionDelivery}
    (h : s.updateDelivery route generation state = some delivery) :
    delivery.label = some (Fin.ofNat (2 ^ 64) s.deliveryIndex,
      route.runtimeCursor (.afterEntityGeneration route.binding generation)) := by
  cases state with
  | some projected =>
      obtain ⟨envelopeBytes, -, rfl⟩ := Option.map_eq_some_iff.mp h
      rfl
  | none =>
      cases h
      rfl

theorem updateKind_moves {m : UpdateMachine T} {i : UpdateStep T}
    (hlive : m.session.ended = false) (hterminal : m.session.terminal = none)
    (horderly : (updateKind route).Orderly m i) :
    (updateKind route).Moves route.ValidCursor m i (updateStep route m i) := by
  obtain ⟨hencodes, hopen, -⟩ := horderly
  have hopen : updateCloses route m i = none := hopen
  have hencodes : encodes route m i = true := hencodes
  cases i with
  | control input => exact .quiet rfl rfl
  | poll =>
      rw [updateStep]
      split
      next hstage =>
        simp only [UpdateMachine.orEnded, hterminal, hlive, Bool.false_eq_true, if_false]
        exact updateKind_takeControl .receiving (by simp [updateTakes, hstage])
      next => exact .quiet rfl rfl
  | receive update =>
      rw [updateStep]
      split
      next hstage =>
        cases update with
        | update generation state =>
            rw [UpdateMachine.receive]
            split_ifs with hseen
            · exact .quiet rfl rfl
            · exact updateKind_takeControl _ (by simp [updateTakes, hstage, hseen])
        | failed message => simp [updateCloses, hstage] at hopen
        | timeout => exact .quiet rfl rfl
        | disconnected => simp [updateCloses, hstage] at hopen
      next => exact .quiet rfl rfl
  | deliver =>
      rw [updateStep]
      split
      next generation state hstage =>
        have hroom : ¬route.queueCap ≤ m.session.inFlight := by
          simpa [updateCloses, hstage] using hopen
        obtain ⟨delivery, hdelivery⟩ : ∃ delivery,
            m.session.updateDelivery route generation state = some delivery := by
          cases state with
          | none => exact ⟨_, rfl⟩
          | some projected =>
              simp only [encodes, hstage] at hencodes
              obtain ⟨bytes, hbytes⟩ := Option.isSome_iff_exists.mp hencodes
              exact ⟨_, by rw [UpdateSession.updateDelivery, hbytes]; rfl⟩
        have hdeliver : m.deliver route generation state =
            { m with session := m.session.advance route generation }.emit delivery := by
          simp only [UpdateMachine.deliver, UpdateSession.deliverUpdate, if_neg hroom, hdelivery]
        rw [hdeliver]
        exact .sends delivery _ (updateDelivery_label hdelivery) (route.validCursor generation)
          (Nat.not_le.mp hroom) rfl rfl
      next => exact .quiet rfl rfl

theorem updateKind_lawful : (updateKind route).Lawful route.ValidCursor where
  accepted _ _ := UpdateSession.applyControl_accepted
  refused _ _ := UpdateSession.applyControl_refused
  moves _ _ := updateKind_moves
  idles m i := by
    rintro ⟨hended, hterminal, hidle⟩ -
    have hover : m.session.ended = true := hended
    have hnone : m.session.terminal = none := hterminal
    have hstage : m.stage = .idle := hidle
    cases i with
    | control input => exact ⟨rfl, rfl, hidle⟩
    | poll => simp [updateKind, updateStep, hstage, UpdateMachine.orEnded, hnone, hover]
    | receive update => simp [updateKind, updateStep, hstage]
    | deliver => simp [updateKind, updateStep, hstage]

end Updates

/-! ### Every kind -/

theorem sessions_keep_contract (resumeCursor : Option RuntimeCursor) :
    (∀ (route : StreamRoute) (feed : StoreFeed) (session : StreamSession)
      (steps : List StreamStep),
      route.openSession resumeCursor = .ok session →
      Guarded (streamStep route) (streamKind route).Orderly (.start feed session) steps →
        (streamKind route).Contract (.start feed session) steps) ∧
    (∀ (T : Type) (route : UpdateRoute T) (session : UpdateSession)
      (steps : List (UpdateStep T)),
      route.openSession resumeCursor = .ok session →
      Guarded (updateStep route) (updateKind route).Orderly (.start session) steps →
        (updateKind route).Contract (.start session) steps) := by
  have hopened {cap : Nat} {valid : RuntimeCursor → Prop} :
      Window.Kept cap valid [] ⟨1, 0, 0, [], false, none⟩ :=
    ⟨rfl, le_refl 0, Nat.zero_le cap, rfl, by simp [WasSent, labels], by simp [labels],
      fun _ => rfl⟩
  constructor
  · intro route feed session steps hopen horderly
    obtain ⟨parsed, -, hsession⟩ := bindOk_iff.mp hopen
    cases hsession
    exact streamKind_lawful.contract hopened rfl rfl horderly
  · intro T route session steps hopen horderly
    obtain ⟨parsed, -, hsession⟩ := bindOk_iff.mp hopen
    cases hsession
    exact updateKind_lawful.contract hopened rfl rfl horderly

instance (route : StreamRoute) (m : StreamMachine) (i : StreamStep) :
    Decidable ((streamKind route).Orderly m i) :=
  inferInstanceAs (Decidable (i.sameSession = true ∧ streamCloses route m i = none ∧
    ∀ inbox ∈ streamTakes m i, m.session.window.tidy inbox = true))

instance {T : Type} (route : UpdateRoute T) (m : UpdateMachine T) (i : UpdateStep T) :
    Decidable ((updateKind route).Orderly m i) :=
  inferInstanceAs (Decidable (encodes route m i = true ∧ updateCloses route m i = none ∧
    ∀ inbox ∈ updateTakes m i, m.session.window.tidy inbox = true))

/-- A subscription to a projection whose states are bytes. -/
def projectionRoute : UpdateRoute Bytes where
  subscriptionId := ascii "a.v1"
  source := .projection
  binding := ⟨List.replicate 16 0, List.replicate 16 1, List.replicate 8 2, rfl, rfl, rfl⟩
  wirePayloadSchemaRef := ascii "schema"
  queueCap := 1
  envelope _ state := some state
  capPos := by decide

def projectionSession : UpdateSession :=
  ⟨false, 0, .beginning projectionRoute.binding, 1, 0, 0, none, none, [], none⟩

/-- A delivery that is acknowledged, then a client that cancels and polls on. -/
def cancelledStream : List StreamStep :=
  [.poll, .page fun _ => false, .control (.ack 1 (entityRoute.runtimeCursor
    (.afterGlobalSequence entityRoute.cursors 0 0))), .poll, .page fun _ => false,
    .control .cancel, .poll, .poll]

def cancelledUpdates : List (UpdateStep Bytes) :=
  [.poll, .receive (.update 1 (some [7])), .deliver, .control .cancel, .poll, .poll]

theorem cancelled_sessions_keep_contract :
    entityRoute.openSession none = .ok entitySession ∧
      Guarded (streamStep entityRoute) (streamKind entityRoute).Orderly
        (.start twoEvents entitySession) cancelledStream ∧
      (streamKind entityRoute).Contract (.start twoEvents entitySession) cancelledStream ∧
      projectionRoute.openSession none = .ok projectionSession ∧
      Guarded (updateStep projectionRoute) (updateKind projectionRoute).Orderly
        (.start projectionSession) cancelledUpdates ∧
      (updateKind projectionRoute).Contract (.start projectionSession) cancelledUpdates := by
  have hstream : Guarded (streamStep entityRoute) (streamKind entityRoute).Orderly
      (.start twoEvents entitySession) cancelledStream := by
    decide +kernel
  have hupdates : Guarded (updateStep projectionRoute) (updateKind projectionRoute).Orderly
      (.start projectionSession) cancelledUpdates := by
    decide +kernel
  exact ⟨rfl, hstream,
    (sessions_keep_contract none).1 entityRoute twoEvents entitySession cancelledStream rfl hstream,
    rfl, hupdates, (sessions_keep_contract none).2 Bytes projectionRoute projectionSession
      cancelledUpdates rfl hupdates⟩

/-- The end that the watcher makes is returned and kept, and returned again. -/
theorem lost_watcher_ends_twice :
    ¬∀ (T : Type) (route : UpdateRoute T) (resumeCursor : Option RuntimeCursor)
      (session : UpdateSession) (steps : List (UpdateStep T)),
      route.openSession resumeCursor = .ok session →
        (updateKind route).Contract (.start session) steps := by
  intro h
  have hcontract := h Bytes projectionRoute none projectionSession
    [.poll, .receive .disconnected, .poll] rfl
  exact absurd hcontract.terminals_le (by decide +kernel)

end Batpak.Syncbat
