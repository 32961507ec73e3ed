/-
Module: Batpak.Proofs.AckIndependence
Purpose: Two runs of a session that differ only in when valid acknowledgements arrive deliver the
  same, as long as none of them moves the scan across an event it would stop at.
Trusted boundary: none
Main exports: Agree, acks_never_change_deliveries
-/
import Batpak.Proofs.StreamRules
import Batpak.Util.Run

namespace Batpak.Syncbat

open Batpak.Util

/-! ### Passes -/

section Passes

variable {route : StreamRoute}
variable {s s₁ s₂ : StreamSession} {e : StreamEntry}

/-- Every read succeeds. -/
abbrev allReadable : StreamEntry → Bool :=
  fun _ => false

variable (route) in
/-- The session in front of an entry it stops at. -/
def placedAt (s : StreamSession) (e : StreamEntry) : StreamSession :=
  if route.source.scans then
    { s with scanAfter := some e.globalSequence, lastQueryReturnedEmpty := false }
  else s

variable (route) in
/-- The session behind a pass that found nothing to stop at. -/
def passedAll (feed : StoreFeed) (s : StreamSession) : StreamSession :=
  { passOver (route.upcoming feed s.scanAfter) s with
    lastQueryReturnedEmpty := route.source.scans || s.lastQueryReturnedEmpty }

theorem passSteps_done {m : StreamMachine} (h : ∀ woken, m.stage ≠ .querying woken) (fuel : Nat) :
    passSteps route fuel m = m := by
  cases fuel with
  | zero => rfl
  | succ fuel =>
      rw [passSteps]
      split
      next woken hstage => exact absurd hstage (h woken)
      · rfl

theorem passOver_append (skipped : List StreamEntry) (last : StreamEntry)
    (rest : List StreamEntry) (s : StreamSession) :
    passOver (skipped ++ last :: rest) s =
      passOver rest { s with scanAfter := some last.globalSequence } := by
  unfold passOver
  cases hlast : rest.getLast? with
  | none =>
      rw [List.getLast?_eq_none_iff.mp hlast]
      simp
  | some e => simp [List.getLast?_append, List.getLast?_cons, hlast]

theorem stopAt_result (unreadable : StreamEntry → Bool) (s : StreamSession) (e : StreamEntry) :
    (stopAt route unreadable s e).2 = .failed ∨
      ∃ d, (stopAt route unreadable s e).2 = .delivery d := by
  unfold stopAt deliverEntry
  split_ifs
  · exact .inl rfl
  · exact .inr ⟨_, rfl⟩
  · exact .inr ⟨_, rfl⟩
  · exact .inl rfl
  · exact .inr ⟨_, rfl⟩

theorem stage_afterPage_stopAt (unreadable : StreamEntry → Bool) (s : StreamSession)
    (e : StreamEntry) (m : StreamMachine) (woken other : Bool) :
    (afterPage woken m (stopAt route unreadable s e)).stage ≠ .querying other := by
  unfold afterPage
  rcases stopAt_result unreadable s e with hresult | ⟨d, hresult⟩
  · rw [hresult]
    simp
  · rw [hresult]
    simp [StreamMachine.emit]

theorem stage_afterPage_exhausted (s : StreamSession) (m : StreamMachine) (woken other : Bool) :
    (afterPage woken m (s, .exhausted)).stage ≠ .querying other := by
  unfold afterPage
  dsimp only
  split_ifs
  · simp
  · simp

/-- A pass ends at the first entry it stops at, or behind all there are. -/
theorem passSteps_eq {m : StreamMachine} {woken : Bool} (hstage : m.stage = .querying woken)
    {fuel : Nat} (hfuel : (route.upcoming m.feed m.session.scanAfter).length < fuel) :
    passSteps route fuel m =
      match (route.upcoming m.feed m.session.scanAfter).find? (stopsAt route allReadable) with
      | some e => afterPage woken m (stopAt route allReadable (placedAt route m.session e) e)
      | none => afterPage woken m (passedAll route m.feed m.session, .exhausted) := by
  induction fuel generalizing m with
  | zero => exact absurd hfuel (Nat.not_lt_zero _)
  | succ fuel ih =>
      rw [passSteps, hstage]
      dsimp only
      unfold pageStep
      rcases @tryDeliver_cases route allReadable m.feed m.session with
        ⟨hup, heq⟩ | ⟨skipped, last, rest, hup, hskipped, hscans, heq⟩ |
          ⟨skipped, e, rest, hup, hskipped, hstop, heq⟩
      · rw [heq, passSteps_done (stage_afterPage_exhausted _ m woken), hup]
        simp only [List.find?_nil, passedAll, hup, passOver, List.getLast?_nil]
      · -- nothing in the page: the pass goes on behind its last entry
        have hnext := StreamRoute.upcoming_next hup
        have hshorter : rest.length < fuel := by
          rw [hup, List.length_append, List.length_cons] at hfuel
          omega
        have hnone : (skipped ++ [last]).find? (stopsAt route allReadable) = none := by
          apply List.find?_eq_none.mpr
          intro x hx
          simp [hskipped x hx]
        have hfind : (skipped ++ last :: rest).find? (stopsAt route allReadable) =
            rest.find? (stopsAt route allReadable) := by
          rw [← List.singleton_append, ← List.append_assoc, List.find?_append, hnone,
            Option.none_or]
        obtain ⟨s, hs⟩ : ∃ s, s = { m.session with
            scanAfter := some last.globalSequence, lastQueryReturnedEmpty := false } := ⟨_, rfl⟩
        have hs' : route.upcoming m.feed s.scanAfter = rest := by
          rw [hs]
          exact hnext
        have hrest := ih (m := { m with session := s }) hstage
          (by dsimp only; rw [hs']; exact hshorter)
        rw [heq, ← hs, hup, hfind]
        dsimp only at hrest
        rw [hs'] at hrest
        refine hrest.trans ?_
        cases rest.find? (stopsAt route allReadable) with
        | some e =>
            have hplaced : placedAt route s e = placedAt route m.session e := by
              unfold placedAt
              rw [if_pos hscans, if_pos hscans, hs]
            dsimp only
            rw [hplaced]
            rfl
        | none =>
            have hpassed : passedAll route m.feed s = passedAll route m.feed m.session := by
              unfold passedAll
              rw [hs', hup, passOver_append, hscans, hs]
              unfold passOver
              cases rest.getLast? with
              | none => rfl
              | some e => rfl
            dsimp only
            rw [hpassed]
            rfl
      · have hfind : (skipped ++ e :: rest).find? (stopsAt route allReadable) = some e := by
          apply List.find?_eq_some_iff_append.mpr
          refine ⟨hstop, skipped, rest, rfl, ?_⟩
          intro x hx
          simp [hskipped x hx]
        rw [heq, hup, hfind]
        exact passSteps_done (stage_afterPage_stopAt _ _ _ _ _) fuel

end Passes

/-! ### Valid acknowledgements -/

/-- The acknowledgement of a delivery that was sent, not before the last one acknowledged. -/
def AckValid (s : StreamSession) (index : Nat) (cursor : RuntimeCursor) : Prop :=
  0 < index ∧ index ≤ s.lastSentDeliveryIndex ∧ s.sentCursor index = some cursor ∧
    s.lastAckedDeliveryIndex ≤ index

instance (s : StreamSession) (index : Nat) (cursor : RuntimeCursor) :
    Decidable (AckValid s index cursor) :=
  inferInstanceAs (Decidable (_ ∧ _))

/-- Pending inputs that are acknowledgements, each valid when its turn comes. -/
def AcksValid (route : StreamRoute) : StreamSession → List SessionControl → Prop
  | _, [] => True
  | s, .ack index cursor :: rest =>
      AckValid s index cursor ∧ AcksValid route (s.applyAck route index cursor) rest
  | _, _ :: _ => False

/-- The position of the last cursor that the pending inputs acknowledge. -/
def ackedPosition (route : StreamRoute) (inbox : List SessionControl) (position : Option U64) :
    Option U64 :=
  inbox.foldl (fun position input =>
    match input with
    | .ack _ cursor => route.positionOf cursor
    | _ => position) position

/-- A position that nothing visible later can lie at or below. -/
def Reached (visible : List StreamEntry) : Option U64 → Prop
  | none => True
  | some p => ∃ e ∈ visible, p ≤ e.globalSequence

/-- The cursors a session has sent are of its route, at positions that were reached. -/
def SentReached (route : StreamRoute) (visible : List StreamEntry) (s : StreamSession) : Prop :=
  ∀ x ∈ s.sentCursors, ∃ p w,
    x.2 = route.runtimeCursor (.afterGlobalSequence route.cursors p w) ∧ Reached visible (some p)

section Acks

variable {route : StreamRoute} {visible : List StreamEntry} {s : StreamSession}

theorem applyAck_valid (hsent : SentReached route visible s) {index : Nat}
    {cursor : RuntimeCursor} (hvalid : AckValid s index cursor) :
    ∃ decoded, s.applyAck route index cursor = s.acked route index cursor decoded ∧
      decoded.resumeAfterGlobalSequence = route.positionOf cursor ∧
        Reached visible (route.positionOf cursor) := by
  obtain ⟨hpos, hle, hrecorded, hforward⟩ := hvalid
  obtain ⟨before, after, heq, -⟩ := List.lookup_eq_some_iff.mp hrecorded
  obtain ⟨p, w, hcursor, hreached⟩ := hsent (index, cursor) (by rw [heq]; simp)
  have hroute := StreamCursor.ofRoute_afterGlobalSequence route.cursors p w
  have hdecode : StreamCursor.decode route.cursors.format cursor =
      .ok (.afterGlobalSequence route.cursors p w) := by
    change cursor = _ at hcursor
    rw [hcursor]
    exact StreamCursor.decode_encode hroute
  have hposition : route.positionOf cursor = some p := by
    change cursor = _ at hcursor
    rw [hcursor]
    exact route.positionOf_runtimeCursor p w
  refine ⟨.afterGlobalSequence route.cursors p w, ?_, hposition.symm, hposition ▸ hreached⟩
  unfold StreamSession.applyAck
  rw [if_neg (by omega), hdecode]
  dsimp only
  rw [StreamCursor.ofRoute_validateRoute hroute, hrecorded]
  dsimp only
  rw [if_neg (not_not.mpr rfl), if_neg (Nat.not_lt.mpr hforward)]
  rfl

/-- A session that differs from another only in what acknowledgements touch. -/
def AckedFrom (s s' : StreamSession) : Prop :=
  ∃ index cursor position, s' =
    { s with
      lastAckedDeliveryIndex := index
      lastAckedCursor := cursor
      scanAfter := position }

theorem ackedPosition_reached {inbox : List SessionControl} {position : Option U64}
    (hsent : SentReached route visible s) (hvalid : AcksValid route s inbox) :
    ackedPosition route inbox position = position ∨
      Reached visible (ackedPosition route inbox position) := by
  induction inbox generalizing s position with
  | nil => exact .inl rfl
  | cons input rest ih =>
      cases input with
      | ack index cursor =>
          obtain ⟨decoded, hacked, -, hreached⟩ := applyAck_valid hsent hvalid.1
          change ackedPosition route rest (route.positionOf cursor) = _ ∨
            Reached visible (ackedPosition route rest (route.positionOf cursor))
          have hrest : AcksValid route (s.acked route index cursor decoded) rest :=
            hacked ▸ hvalid.2
          have hsent' : SentReached route visible (s.acked route index cursor decoded) := hsent
          rcases @ih _ (route.positionOf cursor) hsent' hrest with hsame | hlast
          · rw [hsame]
            exact .inr hreached
          · exact .inr hlast
      | cancel => exact hvalid.elim
      | disconnected => exact hvalid.elim
      | malformed => exact hvalid.elim

/-- Valid inputs leave the session at the last acknowledged cursor, if it scans. -/
theorem drainControl_valid {inbox : List SessionControl} (hsent : SentReached route visible s)
    (hvalid : AcksValid route s inbox) :
    AckedFrom s (s.drainControl route inbox) ∧
      (s.drainControl route inbox).scanAfter =
        (if route.source.scans then ackedPosition route inbox s.scanAfter else s.scanAfter) := by
  induction inbox generalizing s with
  | nil =>
      refine ⟨⟨s.lastAckedDeliveryIndex, s.lastAckedCursor, s.scanAfter, rfl⟩, ?_⟩
      split_ifs
      · rfl
      · rfl
  | cons input rest ih =>
      cases input with
      | ack index cursor =>
          obtain ⟨decoded, hacked, hposition, -⟩ := applyAck_valid hsent hvalid.1
          have hrest : AcksValid route (s.acked route index cursor decoded) rest :=
            hacked ▸ hvalid.2
          have hdrain : s.drainControl route (.ack index cursor :: rest) =
              (s.acked route index cursor decoded).drainControl route rest := by
            rw [← hacked]
            rfl
          have hsent' : SentReached route visible (s.acked route index cursor decoded) := hsent
          obtain ⟨⟨i, c, p, hfrom⟩, hscan⟩ := ih hsent' hrest
          rw [hdrain]
          refine ⟨⟨i, c, p, hfrom⟩, ?_⟩
          rw [hscan]
          change (if route.source.scans = true then ackedPosition route rest
            (if route.source.scans = true then _ else _) else
              if route.source.scans = true then _ else _) = _
          split_ifs
          · rw [hposition]
            rfl
          · rfl
      | cancel => exact hvalid.elim
      | disconnected => exact hvalid.elim
      | malformed => exact hvalid.elim

end Acks

/-! ### Positions that a scan does not tell apart -/

section Positions

variable (route : StreamRoute) (visible : List StreamEntry)

/-- The entries at which a pass stops. -/
def stopsAtEntry (e : StreamEntry) : Bool :=
  route.inRegion e && stopsAt route allReadable e

/-- No entry that a pass stops at lies between the two positions. -/
def SameSide (p q : Option U64) : Prop :=
  ∀ e ∈ visible, stopsAtEntry route e = true →
    StoreFeed.isAfter p e.globalSequence = StoreFeed.isAfter q e.globalSequence

instance (p q : Option U64) : Decidable (SameSide route visible p q) :=
  inferInstanceAs (Decidable (∀ e ∈ visible, _))

/-- Two positions from which every later pass comes to the same. -/
def ScanAgree (p q : Option U64) : Prop :=
  p = q ∨ (Reached visible p ∧ Reached visible q ∧ SameSide route visible p q)

variable {route visible} {p q r : Option U64} {e : StreamEntry}

theorem ScanAgree.sameSide (h : ScanAgree route visible p q) : SameSide route visible p q := by
  rcases h with rfl | ⟨-, -, h⟩
  · intro e _ _
    rfl
  · exact h

theorem Reached.append (h : Reached visible p) (entries : List StreamEntry) :
    Reached (visible ++ entries) p := by
  cases p with
  | none => trivial
  | some p =>
      obtain ⟨e, he, hle⟩ := h
      exact ⟨e, List.mem_append_left _ he, hle⟩

theorem Reached.isAfter {entries : List StreamEntry} (h : Reached visible p)
    (hordered : InCommitOrder (visible ++ entries)) (he : e ∈ entries) :
    StoreFeed.isAfter p e.globalSequence = true := by
  cases p with
  | none => rfl
  | some p =>
      obtain ⟨last, hlast, hle⟩ := h
      exact isAfter_some.mpr
        (lt_of_le_of_lt hle ((List.pairwise_append.mp hordered).2.2 last hlast e he))

theorem ScanAgree.append {entries : List StreamEntry} (h : ScanAgree route visible p q)
    (hordered : InCommitOrder (visible ++ entries)) :
    ScanAgree route (visible ++ entries) p q := by
  rcases h with rfl | ⟨hp, hq, hsame⟩
  · exact .inl rfl
  · refine .inr ⟨hp.append entries, hq.append entries, ?_⟩
    intro e he hstops
    rcases List.mem_append.mp he with hold | hnew
    · exact hsame e hold hstops
    · rw [hp.isAfter hordered hnew, hq.isAfter hordered hnew]

/-- The two sessions stop at the same entry. -/
theorem find?_upcoming {feed : StoreFeed} (h : SameSide route feed.visible p q) :
    (route.upcoming feed p).find? (stopsAt route allReadable) =
      (route.upcoming feed q).find? (stopsAt route allReadable) := by
  unfold StreamRoute.upcoming
  rw [List.find?_filter, List.find?_filter]
  apply List.find?_congr
  intro e he
  by_cases hstops : stopsAtEntry route e = true
  · rw [h e he hstops]
  · have hcases : stopsAt route allReadable e = false ∨ route.inRegion e = false := by
      simp only [stopsAtEntry, Bool.and_eq_true, not_and_or, Bool.not_eq_true] at hstops
      exact hstops.symm
    rcases hcases with hstop | hregion
    · simp [hstop]
    · simp [hregion]

variable (route) in
/-- Behind all entries to come. -/
def passedPosition (feed : StoreFeed) (p : Option U64) : Option U64 :=
  match (route.upcoming feed p).getLast? with
  | some e => some e.globalSequence
  | none => p

theorem passedAll_eq (feed : StoreFeed) (s : StreamSession) :
    passedAll route feed s =
      { s with
        scanAfter := passedPosition route feed s.scanAfter
        lastQueryReturnedEmpty := route.source.scans || s.lastQueryReturnedEmpty } := by
  unfold passedAll passOver passedPosition
  cases (route.upcoming feed s.scanAfter).getLast? with
  | none => rfl
  | some e => rfl

theorem passedPosition_reached {feed : StoreFeed} :
    passedPosition route feed p = p ∨ Reached feed.visible (passedPosition route feed p) := by
  unfold passedPosition
  cases hlast : (route.upcoming feed p).getLast? with
  | none => exact .inl rfl
  | some e =>
      have hmem := StreamRoute.mem_upcoming.mp (List.mem_of_getLast? hlast)
      exact .inr ⟨e, hmem.1, le_refl _⟩

theorem passedPosition_sameSide {feed : StoreFeed}
    (hnone : (route.upcoming feed p).find? (stopsAt route allReadable) = none) :
    SameSide route feed.visible p (passedPosition route feed p) := by
  intro e he hstops
  simp only [stopsAtEntry, Bool.and_eq_true] at hstops
  have hbehind : StoreFeed.isAfter p e.globalSequence = false := by
    rw [Bool.eq_false_iff]
    intro hafter
    have hmem := StreamRoute.mem_upcoming.mpr ⟨he, hstops.1, hafter⟩
    exact List.find?_eq_none.mp hnone e hmem hstops.2
  rw [hbehind]
  unfold passedPosition
  cases hlast : (route.upcoming feed p).getLast? with
  | none => exact hbehind.symm
  | some last =>
      have hafter := (StreamRoute.mem_upcoming.mp (List.mem_of_getLast? hlast)).2.2
      symm
      rw [Bool.eq_false_iff]
      intro hpast
      have hlt : last.globalSequence < e.globalSequence := isAfter_some.mp hpast
      cases p with
      | none => cases hbehind
      | some p =>
          rw [isAfter_some.mpr (lt_trans (isAfter_some.mp hafter) hlt)] at hbehind
          cases hbehind

/-- Positions moved within their sides still agree. -/
theorem ScanAgree.move {p' q' : Option U64} (h : ScanAgree route visible p q)
    (hp : p' = p ∨ (Reached visible p ∧ Reached visible p'))
    (hq : q' = q ∨ (Reached visible q ∧ Reached visible q'))
    (hpside : SameSide route visible p p') (hqside : SameSide route visible q q') :
    ScanAgree route visible p' q' := by
  have hsame : SameSide route visible p' q' := by
    intro e he hstops
    rw [← hpside e he hstops, h.sameSide e he hstops, hqside e he hstops]
  rcases h with rfl | ⟨hpreached, hqreached, -⟩
  · rcases hp with rfl | ⟨hreached, hp'⟩
    · rcases hq with rfl | ⟨hreached, hq'⟩
      · exact .inl rfl
      · exact .inr ⟨hreached, hq', hsame⟩
    · rcases hq with rfl | ⟨-, hq'⟩
      · exact .inr ⟨hp', hreached, hsame⟩
      · exact .inr ⟨hp', hq', hsame⟩
  · have hp' : Reached visible p' := by
      rcases hp with rfl | ⟨-, hp⟩
      · exact hpreached
      · exact hp
    have hq' : Reached visible q' := by
      rcases hq with rfl | ⟨-, hq⟩
      · exact hqreached
      · exact hq
    exact .inr ⟨hp', hq', hsame⟩

theorem ScanAgree.passed {feed : StoreFeed} (h : ScanAgree route feed.visible p q)
    (hnone : (route.upcoming feed p).find? (stopsAt route allReadable) = none) :
    ScanAgree route feed.visible (passedPosition route feed p) (passedPosition route feed q) := by
  have hnone' : (route.upcoming feed q).find? (stopsAt route allReadable) = none :=
    find?_upcoming h.sameSide ▸ hnone
  rcases h with rfl | ⟨hp, hq, hsame⟩
  · exact .inl rfl
  · have h : ScanAgree route feed.visible p q := .inr ⟨hp, hq, hsame⟩
    exact h.move (passedPosition_reached.imp_right fun hp' => ⟨hp, hp'⟩)
      (passedPosition_reached.imp_right fun hq' => ⟨hq, hq'⟩)
      (passedPosition_sameSide hnone) (passedPosition_sameSide hnone')

end Positions

/-! ### Agreeing sessions -/

/-- Without the acknowledged cursor of an error. -/
def SessionDelivery.forgetAcks : SessionDelivery → SessionDelivery
  | .error sent => .error { sent with lastAckedCursor := none }
  | other => other

/-- Without what acknowledgements touch. -/
def StreamSession.forgetAcks (s : StreamSession) : StreamSession :=
  { s with
    scanAfter := none
    lastAckedDeliveryIndex := 0
    lastAckedCursor := none
    terminal := s.terminal.map SessionDelivery.forgetAcks }

/-- The sent cursors were reached, and with the first of them so was the scan position. -/
structure SessionReached (route : StreamRoute) (m : StreamMachine) : Prop where
  sent : SentReached route m.feed.visible m.session
  scan : m.session.sentCursors = [] ∨ Reached m.feed.visible m.session.scanAfter

/-- Two machines on one store that differ in what acknowledgements touch. -/
structure Agree (route : StreamRoute) (m₁ m₂ : StreamMachine) : Prop where
  feed : m₁.feed = m₂.feed
  stage : m₁.stage = m₂.stage
  session : m₁.session.forgetAcks = m₂.session.forgetAcks
  sent : m₁.sent.map SessionDelivery.forgetAcks = m₂.sent.map SessionDelivery.forgetAcks
  scan : ScanAgree route m₁.feed.visible m₁.session.scanAfter m₂.session.scanAfter

/-- The setting: control inputs are acknowledgements, valid when they are taken, and the window
has room for a delivery. -/
def AcksAndWindow (route : StreamRoute) (m : StreamMachine) : SessionStep → Prop
  | .control (.ack _ _) => True
  | .control _ => False
  | .poll => m.stage = .idle → AcksValid route m.session m.inbox
  | .wake notified => m.stage = .waiting → notified = true → AcksValid route m.session m.inbox
  | .pass | .frontier => m.session.inFlight < route.queueCap
  | .publish _ _ | .settle => True

/-- No entry that the scan stops at lies between its position and the cursor that the pending
acknowledgements move it to. -/
def AckKeepsPlace (route : StreamRoute) (m : StreamMachine) : Prop :=
  route.source.scans = true → SameSide route m.feed.visible m.session.scanAfter
    (ackedPosition route m.inbox m.session.scanAfter)

/-- Neither does an acknowledgement move the scan across such an entry, nor does a watermark
move it back below one. -/
def ScanKept (route : StreamRoute) (m : StreamMachine) : SessionStep → Prop
  | .poll => m.stage = .idle → AckKeepsPlace route m
  | .wake notified => m.stage = .waiting → notified = true → AckKeepsPlace route m
  | .frontier => watermarkDue route m = true →
      ∀ e ∈ m.feed.visible, stopsAtEntry route e = true →
        StoreFeed.isAfter m.session.scanAfter e.globalSequence = false →
          e.globalSequence ≤ m.feed.frontier.globalSequence
  | .control _ | .pass | .publish _ _ | .settle => True

section Agreement

variable {route : StreamRoute} {m₁ m₂ : StreamMachine} {s₁ s₂ : StreamSession} {e : StreamEntry}

theorem AckedFrom.forgetAcks {s s' : StreamSession} (h : AckedFrom s s') :
    s'.forgetAcks = s.forgetAcks := by
  obtain ⟨index, cursor, position, rfl⟩ := h
  rfl

theorem Agree.phase (h : Agree route m₁ m₂) : m₁.session.phase = m₂.session.phase := by
  have hphase := congrArg StreamSession.phase h.session
  exact hphase

theorem Agree.terminal (h : Agree route m₁ m₂) :
    m₁.session.terminal.map SessionDelivery.forgetAcks =
      m₂.session.terminal.map SessionDelivery.forgetAcks := by
  have hterminal := congrArg StreamSession.terminal h.session
  exact hterminal

theorem Agree.emit {d₁ d₂ : SessionDelivery} (h : Agree route m₁ m₂)
    (hd : d₁.forgetAcks = d₂.forgetAcks) : Agree route (m₁.emit d₁) (m₂.emit d₂) := by
  refine ⟨h.feed, rfl, h.session, ?_, h.scan⟩
  change (m₁.sent ++ [d₁]).map _ = (m₂.sent ++ [d₂]).map _
  simp only [List.map_append, List.map_cons, List.map_nil, h.sent, hd]

theorem Agree.withSession (h : Agree route m₁ m₂) (hs : s₁.forgetAcks = s₂.forgetAcks)
    (hscan : ScanAgree route m₁.feed.visible s₁.scanAfter s₂.scanAfter) :
    Agree route { m₁ with session := s₁ } { m₂ with session := s₂ } :=
  ⟨h.feed, h.stage, hs, h.sent, hscan⟩

theorem Agree.withStage (h : Agree route m₁ m₂) (stage : PollStage) :
    Agree route { m₁ with stage := stage } { m₂ with stage := stage } :=
  ⟨h.feed, rfl, h.session, h.sent, h.scan⟩

theorem Agree.orEnded {next : StreamMachine → StreamMachine} (h : Agree route m₁ m₂)
    (hnext : Agree route (next m₁) (next m₂)) :
    Agree route (m₁.orEnded next) (m₂.orEnded next) := by
  have hterminal := h.terminal
  unfold StreamMachine.orEnded
  cases h₁ : m₁.session.terminal with
  | none =>
      rw [h₁] at hterminal
      have h₂ : m₂.session.terminal = none := Option.map_eq_none_iff.mp hterminal.symm
      rw [h₂]
      dsimp only
      rw [h.phase]
      split_ifs
      · exact h.withStage .idle
      · exact hnext
  | some d₁ =>
      rw [h₁] at hterminal
      obtain ⟨d₂, h₂, hd⟩ := Option.map_eq_some_iff.mp hterminal.symm
      rw [h₂]
      have hs : { m₁.session with terminal := none }.forgetAcks =
          { m₂.session with terminal := none }.forgetAcks :=
        congrArg (fun s : StreamSession => { s with terminal := none }) h.session
      exact (h.withSession hs h.scan).emit hd.symm

/-- What can be acknowledged was sent, and the scan has got there. -/
theorem reached_of_acksValid {m : StreamMachine} {input : SessionControl}
    {rest : List SessionControl} (hreached : SessionReached route m)
    (hvalid : AcksValid route m.session (input :: rest)) :
    Reached m.feed.visible m.session.scanAfter := by
  cases input with
  | ack index cursor =>
      have hrecorded : m.session.sentCursor index = some cursor := hvalid.1.2.2.1
      rcases hreached.scan with hnil | hscan
      · rw [StreamSession.sentCursor, hnil] at hrecorded
        cases hrecorded
      · exact hscan
  | cancel => exact hvalid.elim
  | disconnected => exact hvalid.elim
  | malformed => exact hvalid.elim

/-- The scan position behind valid acknowledgements. -/
theorem drained_scan {m : StreamMachine} (hreached : SessionReached route m)
    (hvalid : AcksValid route m.session m.inbox) (hkept : AckKeepsPlace route m) :
    ((m.session.drainControl route m.inbox).scanAfter = m.session.scanAfter ∨
      (Reached m.feed.visible m.session.scanAfter ∧
        Reached m.feed.visible (m.session.drainControl route m.inbox).scanAfter)) ∧
      SameSide route m.feed.visible m.session.scanAfter
        (m.session.drainControl route m.inbox).scanAfter := by
  have hsame : SameSide route m.feed.visible m.session.scanAfter m.session.scanAfter := by
    intro e _ _
    rfl
  rw [(drainControl_valid hreached.sent hvalid).2]
  cases hscans : route.source.scans with
  | false => exact ⟨.inl rfl, hsame⟩
  | true =>
      refine ⟨?_, hkept hscans⟩
      rw [if_pos rfl]
      cases hinbox : m.inbox with
      | nil => exact .inl rfl
      | cons input rest =>
          have hscan := reached_of_acksValid hreached (hinbox ▸ hvalid)
          rcases @ackedPosition_reached route _ _ _ m.session.scanAfter hreached.sent hvalid with
            hstays | hposition
          · exact .inl (hinbox ▸ hstays)
          · exact .inr ⟨hscan, hinbox ▸ hposition⟩

theorem Agree.takeControl (woken : Bool) (h : Agree route m₁ m₂)
    (h₁ : SessionReached route m₁) (h₂ : SessionReached route m₂)
    (hvalid₁ : AcksValid route m₁.session m₁.inbox)
    (hvalid₂ : AcksValid route m₂.session m₂.inbox)
    (hkept₁ : AckKeepsPlace route m₁) (hkept₂ : AckKeepsPlace route m₂) :
    Agree route (takeControl route woken m₁) (takeControl route woken m₂) := by
  obtain ⟨hmove₁, hside₁⟩ := drained_scan h₁ hvalid₁ hkept₁
  obtain ⟨hmove₂, hside₂⟩ := drained_scan h₂ hvalid₂ hkept₂
  have hfeed := h.feed
  have hdrained : Agree route
      { m₁ with session := m₁.session.drainControl route m₁.inbox, inbox := [] }
      { m₂ with session := m₂.session.drainControl route m₂.inbox, inbox := [] } := by
    refine ⟨h.feed, h.stage, ?_, h.sent, ?_⟩
    · change (m₁.session.drainControl route m₁.inbox).forgetAcks =
        (m₂.session.drainControl route m₂.inbox).forgetAcks
      rw [(drainControl_valid h₁.sent hvalid₁).1.forgetAcks,
        (drainControl_valid h₂.sent hvalid₂).1.forgetAcks]
      exact h.session
    · rw [← hfeed] at hmove₂ hside₂
      exact h.scan.move hmove₁ hmove₂ hside₁ hside₂
  exact hdrained.orEnded (hdrained.withStage _)

/-- What a session with room in its window does at an entry does not depend on
acknowledgements. -/
theorem stopAt_agree {visible : List StreamEntry} (hs : s₁.forgetAcks = s₂.forgetAcks)
    (hscan : ScanAgree route visible s₁.scanAfter s₂.scanAfter)
    (hroom₁ : s₁.inFlight < route.queueCap) (hroom₂ : s₂.inFlight < route.queueCap) :
    ∃ s₁' s₂' d₁ d₂, stopAt route allReadable s₁ e = (s₁', .delivery d₁) ∧
      stopAt route allReadable s₂ e = (s₂', .delivery d₂) ∧
      s₁'.forgetAcks = s₂'.forgetAcks ∧
      ScanAgree route visible s₁'.scanAfter s₂'.scanAfter ∧
      d₁.forgetAcks = d₂.forgetAcks := by
  have hread : ¬(route.source.readsFirst && allReadable e) = true := by simp
  unfold stopAt
  rw [if_neg hread, if_neg hread]
  by_cases hundecodable : classify route.reader route.source e = .undecodable
  · rw [if_pos hundecodable, if_pos hundecodable]
    refine ⟨_, _, _, _, rfl, rfl, ?_, hscan, ?_⟩
    · exact congrArg (fun s : StreamSession =>
        s.endWith (s.receiptDecodeFailedError route)) hs
    · exact congrArg (fun s : StreamSession => s.receiptDecodeFailedError route) hs
  · rw [if_neg hundecodable, if_neg hundecodable]
    unfold deliverEntry
    rw [if_neg (Nat.not_le.mpr hroom₁), if_neg (Nat.not_le.mpr hroom₂),
      if_neg Bool.false_ne_true, if_neg Bool.false_ne_true]
    refine ⟨_, _, _, _, rfl, rfl, ?_, .inl rfl, ?_⟩
    · exact congrArg (fun s : StreamSession => s.send route
        (.afterGlobalSequence route.cursors e.globalSequence e.wallMs)) hs
    · have hdelivery := congrArg (fun s : StreamSession => s.eventDelivery route e) hs
      exact congrArg SessionDelivery.forgetAcks hdelivery

theorem placedAt_agree (hs : s₁.forgetAcks = s₂.forgetAcks) :
    (placedAt route s₁ e).forgetAcks = (placedAt route s₂ e).forgetAcks := by
  unfold placedAt
  split_ifs
  · exact congrArg (fun s : StreamSession => { s with lastQueryReturnedEmpty := false }) hs
  · exact hs

theorem passOver_forgetAcks (entries : List StreamEntry) (s : StreamSession) :
    (passOver entries s).forgetAcks = s.forgetAcks := by
  unfold passOver
  cases entries.getLast? with
  | none => rfl
  | some e => rfl

theorem passedAll_agree {feed : StoreFeed} {s₁ s₂ : StreamSession}
    (hs : s₁.forgetAcks = s₂.forgetAcks) :
    (passedAll route feed s₁).forgetAcks = (passedAll route feed s₂).forgetAcks := by
  have hflag := congrArg StreamSession.lastQueryReturnedEmpty hs
  change s₁.lastQueryReturnedEmpty = s₂.lastQueryReturnedEmpty at hflag
  have hpassed (s : StreamSession) : (passedAll route feed s).forgetAcks =
      { s.forgetAcks with
        lastQueryReturnedEmpty := route.source.scans || s.lastQueryReturnedEmpty } := by
    rw [← passOver_forgetAcks (route.upcoming feed s.scanAfter) s]
    rfl
  rw [hpassed, hpassed, hs, hflag]

theorem length_upcoming_lt (feed : StoreFeed) (position : Option U64) :
    (route.upcoming feed position).length < feed.visible.length + 1 :=
  Nat.lt_succ_of_le (List.length_filter_le _ _)

theorem Agree.pass (h : Agree route m₁ m₂) (hroom₁ : m₁.session.inFlight < route.queueCap)
    (hroom₂ : m₂.session.inFlight < route.queueCap) :
    Agree route (sessionStep route m₁ .pass) (sessionStep route m₂ .pass) := by
  have hfeed := h.feed
  have hstage := h.stage
  change Agree route (passSteps route _ m₁) (passSteps route _ m₂)
  by_cases hquery : ∃ woken, m₁.stage = .querying woken
  · obtain ⟨woken, hwoken⟩ := hquery
    have hsame := find?_upcoming h.scan.sameSide
    rw [passSteps_eq hwoken (length_upcoming_lt _ _),
      passSteps_eq (hstage ▸ hwoken) (length_upcoming_lt _ _), ← hfeed, ← hsame]
    cases hfind : (route.upcoming m₁.feed m₁.session.scanAfter).find?
        (stopsAt route allReadable) with
    | some e =>
        have hplaced : ScanAgree route m₁.feed.visible (placedAt route m₁.session e).scanAfter
            (placedAt route m₂.session e).scanAfter := by
          unfold placedAt
          split_ifs
          · exact .inl rfl
          · exact h.scan
        have hroom (s : StreamSession) (hs : s.inFlight < route.queueCap) :
            (placedAt route s e).inFlight < route.queueCap := by
          unfold placedAt
          split_ifs
          · exact hs
          · exact hs
        obtain ⟨s₁, s₂, d₁, d₂, heq₁, heq₂, hs, hscan, hd⟩ := stopAt_agree
          (placedAt_agree h.session) hplaced (hroom _ hroom₁) (hroom _ hroom₂)
        dsimp only
        rw [heq₁, heq₂]
        exact (h.withSession hs hscan).emit hd
    | none =>
        have hpassed := h.withSession (@passedAll_agree route m₁.feed _ _ h.session)
          (by rw [passedAll_eq, passedAll_eq]; exact h.scan.passed hfind)
        have hphase := hpassed.phase
        dsimp only at hphase
        unfold afterPage
        dsimp only
        rw [hphase]
        split_ifs
        · exact hpassed.withStage _
        · exact hpassed.withStage _
  · have hidle₁ : ∀ woken, m₁.stage ≠ .querying woken := fun woken hw => hquery ⟨woken, hw⟩
    have hidle₂ : ∀ woken, m₂.stage ≠ .querying woken := fun woken => hstage ▸ hidle₁ woken
    rw [passSteps_done hidle₁, passSteps_done hidle₂]
    exact h

/-- Whether a watermark is due does not depend on acknowledgements while the window has
room. -/
theorem watermark_agree {frontier : FeedPoint} {s₁ s₂ : StreamSession}
    (hs : s₁.forgetAcks = s₂.forgetAcks) (hroom₁ : s₁.inFlight < route.queueCap)
    (hroom₂ : s₂.inFlight < route.queueCap) :
    (maybeEmitWatermark route frontier s₁ = (s₁, none) ∧
      maybeEmitWatermark route frontier s₂ = (s₂, none)) ∨
    ∃ s₁' s₂' d₁ d₂, maybeEmitWatermark route frontier s₁ = (s₁', some d₁) ∧
      maybeEmitWatermark route frontier s₂ = (s₂', some d₂) ∧
      s₁'.forgetAcks = s₂'.forgetAcks ∧ s₁'.scanAfter = s₂'.scanAfter ∧
      d₁.forgetAcks = d₂.forgetAcks := by
  have hempty := congrArg StreamSession.lastQueryReturnedEmpty hs
  change s₁.lastQueryReturnedEmpty = s₂.lastQueryReturnedEmpty at hempty
  have hseen := congrArg StreamSession.lastWatermarkedVisibleSeq hs
  change s₁.lastWatermarkedVisibleSeq = s₂.lastWatermarkedVisibleSeq at hseen
  unfold maybeEmitWatermark
  rw [hempty, hseen, if_neg (Nat.not_le.mpr hroom₁), if_neg (Nat.not_le.mpr hroom₂)]
  split_ifs
  · exact .inl ⟨rfl, rfl⟩
  · exact .inl ⟨rfl, rfl⟩
  · refine .inr ⟨_, _, _, _, rfl, rfl, ?_, rfl, ?_⟩
    · exact congrArg (fun s : StreamSession =>
        { s.send route
            (.afterGlobalSequence route.cursors frontier.globalSequence frontier.wallMs) with
          lastWatermarkedVisibleSeq := frontier.globalSequence }) hs
    · have hdelivery := congrArg (fun s : StreamSession => s.watermarkDelivery route frontier) hs
      exact congrArg SessionDelivery.forgetAcks hdelivery

theorem afterFirstPass_agree (woken : Bool) (hs : s₁.forgetAcks = s₂.forgetAcks) :
    (afterFirstPass woken s₁).forgetAcks = (afterFirstPass woken s₂).forgetAcks := by
  cases woken with
  | true => exact hs
  | false => exact congrArg (fun s : StreamSession => { s with phase := .live }) hs

theorem afterFirstPass_scanAfter (woken : Bool) (s : StreamSession) :
    (afterFirstPass woken s).scanAfter = s.scanAfter := by
  cases woken with
  | true => rfl
  | false => rfl

theorem Agree.frontierStep (woken : Bool) (h : Agree route m₁ m₂)
    (hroom₁ : m₁.session.inFlight < route.queueCap)
    (hroom₂ : m₂.session.inFlight < route.queueCap) :
    Agree route (frontierStep route woken m₁) (frontierStep route woken m₂) := by
  unfold Batpak.Syncbat.frontierStep
  rw [← h.feed]
  rcases @watermark_agree route m₁.feed.frontier _ _ h.session hroom₁ hroom₂ with
    ⟨heq₁, heq₂⟩ | ⟨s₁, s₂, d₁, d₂, heq₁, heq₂, hs, hscan, hd⟩
  · rw [heq₁, heq₂]
    have hpassed := h.withSession (afterFirstPass_agree woken h.session)
      (by rw [afterFirstPass_scanAfter, afterFirstPass_scanAfter]; exact h.scan)
    exact hpassed.withStage _
  · rw [heq₁, heq₂]
    have hpassed := h.withSession (afterFirstPass_agree woken hs)
      (.inl (by rw [afterFirstPass_scanAfter, afterFirstPass_scanAfter]; exact hscan))
    exact hpassed.emit hd

theorem Agree.publish (h : Agree route m₁ m₂) (entries : List StreamEntry) (last : StreamEntry) :
    Agree route { m₁ with feed := m₁.feed.publish entries last }
      { m₂ with feed := m₂.feed.publish entries last } := by
  refine ⟨congrArg (fun feed => StoreFeed.publish feed entries last) h.feed, h.stage, h.session,
    h.sent, ?_⟩
  obtain ⟨added, hvisible, hordered⟩ := publish_visible m₁.feed entries last
  dsimp only
  rw [hvisible]
  exact h.scan.append hordered

theorem Agree.settle (h : Agree route m₁ m₂) :
    Agree route { m₁ with feed := m₁.feed.settle } { m₂ with feed := m₂.feed.settle } := by
  refine ⟨congrArg StoreFeed.settle h.feed, h.stage, h.session, h.sent, ?_⟩
  dsimp only
  rw [settle_visible]
  exact h.scan

/-- One step that is not a control input, taken by both. -/
theorem Agree.step {step : SessionStep} (h : Agree route m₁ m₂)
    (h₁ : SessionReached route m₁) (h₂ : SessionReached route m₂)
    (hset₁ : AcksAndWindow route m₁ step) (hset₂ : AcksAndWindow route m₂ step)
    (hkept₁ : ScanKept route m₁ step) (hkept₂ : ScanKept route m₂ step)
    (hstep : step.isControl = false) :
    Agree route (sessionStep route m₁ step) (sessionStep route m₂ step) := by
  have hstage := h.stage
  cases step with
  | publish entries last => exact h.publish entries last
  | settle => exact h.settle
  | control input => cases hstep
  | pass => exact h.pass hset₁ hset₂
  | poll =>
      cases hidle : m₁.stage with
      | idle =>
          have hidle₂ : m₂.stage = .idle := hstage ▸ hidle
          simp only [sessionStep, streamStep, hidle, hidle₂]
          exact h.orEnded (h.takeControl false h₁ h₂ (hset₁ hidle) (hset₂ hidle₂) (hkept₁ hidle)
            (hkept₂ hidle₂))
      | _ => simpa only [sessionStep, streamStep, hidle, ← hstage] using h
  | frontier =>
      cases hreading : m₁.stage with
      | readingFrontier woken =>
          simp only [sessionStep, streamStep, hreading, ← hstage]
          exact h.frontierStep woken hset₁ hset₂
      | _ => simpa only [sessionStep, streamStep, hreading, ← hstage] using h
  | wake notified =>
      cases hwaiting : m₁.stage with
      | waiting =>
          have hwaiting₂ : m₂.stage = .waiting := hstage ▸ hwaiting
          simp only [sessionStep, streamStep, hwaiting, hwaiting₂]
          cases notified with
          | true =>
              exact h.takeControl true h₁ h₂ (hset₁ hwaiting rfl) (hset₂ hwaiting₂ rfl)
                (hkept₁ hwaiting rfl) (hkept₂ hwaiting₂ rfl)
          | false => exact h.withStage _
      | _ => simpa only [sessionStep, streamStep, hwaiting, ← hstage] using h

end Agreement

/-! ### Deliveries in order -/

/-- The events among the deliveries. -/
def eventsOf (sent : List SessionDelivery) : List SessionEventDelivery :=
  sent.filterMap fun
    | .event sent => some sent
    | _ => none

/-- The first of two events stands at a lower sequence. -/
def Before (route : StreamRoute) (a b : SessionEventDelivery) : Prop :=
  ∃ p ∈ route.positionOf a.cursorAfter, ∃ q ∈ route.positionOf b.cursorAfter, p < q

/-- Every event takes up the cursor that the delivery before it left. -/
def Linked (sent : List SessionDelivery) : Prop :=
  ∀ n d event, sent[n]? = some d → sent[n + 1]? = some (.event event) →
    d.cursorAfter = some event.cursorBefore

/-- The next event will take up the cursor of the last delivery. -/
def Follows (route : StreamRoute) (sent : List SessionDelivery) (s : StreamSession) : Prop :=
  ∀ d ∈ sent.getLast?, d.cursorAfter = some (route.runtimeCursor s.cursorBeforeNext)

/-- All that the scan will stop at lies past the events delivered so far. -/
def Ahead (route : StreamRoute) (visible : List StreamEntry) (scan : Option U64)
    (events : List SessionEventDelivery) : Prop :=
  ∀ event ∈ events, ∃ p ∈ route.positionOf event.cursorAfter, Reached visible (some p) ∧
    ∀ e ∈ visible, stopsAtEntry route e = true →
      StoreFeed.isAfter scan e.globalSequence = true → p < e.globalSequence

structure InOrder (route : StreamRoute) (m : StreamMachine) : Prop where
  reached : SessionReached route m
  events : (eventsOf m.sent).Pairwise (Before route)
  ahead : Ahead route m.feed.visible m.session.scanAfter (eventsOf m.sent)
  linked : Linked m.sent
  next : (m.stage = .idle ∧ m.session.phase = .ended) ∨ Follows route m.sent m.session
  terminal : ∀ d ∈ m.session.terminal, m.session.phase = .ended ∧ ∀ event, d ≠ .event event
  running : m.stage ≠ .idle → m.session.phase ≠ .ended

section Order

variable {route : StreamRoute} {visible : List StreamEntry} {m : StreamMachine}
  {s : StreamSession} {e : StreamEntry}

theorem eventsOf_concat (sent : List SessionDelivery) (d : SessionDelivery) :
    eventsOf (sent ++ [d]) = eventsOf sent ++ eventsOf [d] :=
  List.filterMap_append

theorem Linked.concat {sent : List SessionDelivery} {d : SessionDelivery} (h : Linked sent)
    (hd : ∀ event, d = .event event → ∀ last ∈ sent.getLast?,
      last.cursorAfter = some event.cursorBefore) : Linked (sent ++ [d]) := by
  intro n before event hbefore hevent
  rcases Nat.lt_trichotomy (n + 1) sent.length with hlt | heq | hgt
  · rw [List.getElem?_append_left (by omega)] at hbefore
    rw [List.getElem?_append_left hlt] at hevent
    exact h n before event hbefore hevent
  · rw [List.getElem?_append_left (by omega)] at hbefore
    rw [heq, List.getElem?_concat_length] at hevent
    cases hevent
    apply hd event rfl before
    rw [List.getLast?_eq_getElem?, ← heq, Nat.add_sub_cancel]
    exact hbefore
  · rw [List.getElem?_eq_none (by rw [List.length_append]; exact hgt)] at hevent
    cases hevent

theorem Ahead.mono {scan scan' : Option U64} {events : List SessionEventDelivery}
    (h : Ahead route visible scan events)
    (hscan : ∀ e ∈ visible, stopsAtEntry route e = true →
      StoreFeed.isAfter scan' e.globalSequence = true →
        StoreFeed.isAfter scan e.globalSequence = true) :
    Ahead route visible scan' events := by
  intro event hevent
  obtain ⟨p, hp, hreached, hahead⟩ := h event hevent
  exact ⟨p, hp, hreached, fun e he hstops hafter => hahead e he hstops (hscan e he hstops hafter)⟩

theorem Ahead.append {scan : Option U64} {events : List SessionEventDelivery}
    {added : List StreamEntry} (h : Ahead route visible scan events)
    (hordered : InCommitOrder (visible ++ added)) :
    Ahead route (visible ++ added) scan events := by
  intro event hevent
  obtain ⟨p, hp, hreached, hahead⟩ := h event hevent
  refine ⟨p, hp, hreached.append added, ?_⟩
  intro e he hstops hafter
  rcases List.mem_append.mp he with hold | hnew
  · exact hahead e hold hstops hafter
  · exact isAfter_some.mp (hreached.isAfter hordered hnew)

theorem SentReached.append {added : List StreamEntry}
    (h : SentReached route visible s) : SentReached route (visible ++ added) s := by
  intro x hx
  obtain ⟨p, w, hcursor, hreached⟩ := h x hx
  exact ⟨p, w, hcursor, hreached.append added⟩

theorem SentReached.send (h : SentReached route visible s) {p w : U64}
    (hreached : Reached visible (some p)) :
    SentReached route visible (s.send route (.afterGlobalSequence route.cursors p w)) := by
  intro x hx
  rcases List.mem_cons.mp hx with rfl | hx
  · exact ⟨p, w, rfl, hreached⟩
  · exact h x hx

/-- A delivery that is no event and leaves an ended session. -/
theorem InOrder.emitEnded {d : SessionDelivery} (h : InOrder route m)
    (hreached : SessionReached route { m with session := s })
    (hahead : Ahead route m.feed.visible s.scanAfter (eventsOf m.sent))
    (hended : s.phase = .ended) (hd : ∀ event, d ≠ .event event)
    (hterminal : ∀ x ∈ s.terminal, ∀ event, x ≠ .event event) :
    InOrder route ({ m with session := s }.emit d) := by
  have hevents : eventsOf (m.sent ++ [d]) = eventsOf m.sent := by
    rw [eventsOf_concat]
    cases d with
    | event event => exact absurd rfl (hd event)
    | watermark watermark => exact List.append_nil _
    | error error => exact List.append_nil _
    | ended ended => exact List.append_nil _
  refine ⟨⟨hreached.sent, hreached.scan⟩, ?_, ?_, h.linked.concat ?_, .inl ⟨rfl, hended⟩,
    fun x hx => ⟨hended, hterminal x hx⟩, fun hstage => absurd rfl hstage⟩
  · change (eventsOf (m.sent ++ [d])).Pairwise _
    rw [hevents]
    exact h.events
  · change Ahead _ _ _ (eventsOf (m.sent ++ [d]))
    rw [hevents]
    exact hahead
  · intro event heq
    exact absurd heq (hd event)

theorem InOrder.orEnded {next : StreamMachine → StreamMachine} (h : InOrder route m)
    (hnext : m.session.phase ≠ .ended → Follows route m.sent m.session →
      InOrder route (next m)) : InOrder route (m.orEnded next) := by
  unfold StreamMachine.orEnded
  cases hterminal : m.session.terminal with
  | some d =>
      obtain ⟨hended, hd⟩ := h.terminal d hterminal
      exact h.emitEnded (s := { m.session with terminal := none })
        ⟨h.reached.sent, h.reached.scan⟩ h.ahead hended hd (by intro x hx; cases hx)
  | none =>
      dsimp only
      split_ifs with hended
      · exact ⟨⟨h.reached.sent, h.reached.scan⟩, h.events, h.ahead, h.linked,
          .inl ⟨rfl, hended⟩, h.terminal, fun hstage => absurd rfl hstage⟩
      · rcases h.next with ⟨-, hphase⟩ | hfollows
        · exact absurd hphase hended
        · exact hnext hended hfollows

theorem InOrder.takeControl (woken : Bool) (h : InOrder route m)
    (hvalid : AcksValid route m.session m.inbox) (hkept : AckKeepsPlace route m) :
    InOrder route (takeControl route woken m) := by
  obtain ⟨hmove, hside⟩ := drained_scan h.reached hvalid hkept
  obtain ⟨⟨index, cursor, position, hdrained⟩, -⟩ := drainControl_valid h.reached.sent hvalid
  unfold Batpak.Syncbat.takeControl
  rw [hdrained] at hmove hside ⊢
  have hinOrder : InOrder route
      { m with
        session := { m.session with
          lastAckedDeliveryIndex := index
          lastAckedCursor := cursor
          scanAfter := position }
        inbox := [] } := by
    refine ⟨⟨h.reached.sent, ?_⟩, h.events, ?_, h.linked, h.next, h.terminal, h.running⟩
    · rcases hmove with hstays | ⟨-, hreached⟩
      · dsimp only at hstays ⊢
        rw [hstays]
        exact h.reached.scan
      · exact .inr hreached
    · apply h.ahead.mono
      intro e he hstops hafter
      rw [hside e he hstops]
      exact hafter
  apply hinOrder.orEnded
  intro hphase hfollows
  exact ⟨⟨hinOrder.reached.sent, hinOrder.reached.scan⟩, hinOrder.events, hinOrder.ahead,
    hinOrder.linked, .inr hfollows, hinOrder.terminal, fun _ => hphase⟩

theorem placedAt_eq (s : StreamSession) (e : StreamEntry) :
    ∃ position flag, placedAt route s e =
        { s with scanAfter := position, lastQueryReturnedEmpty := flag } ∧
      (position = s.scanAfter ∨ position = some e.globalSequence) := by
  unfold placedAt
  split_ifs
  · exact ⟨_, _, rfl, .inr rfl⟩
  · exact ⟨_, _, rfl, .inl rfl⟩

/-- Moving the scan to an entry to come leaves nothing behind that is not. -/
theorem isAfter_of_upcoming {feed : StoreFeed} {position scan : Option U64} {e x : StreamEntry}
    (he : e ∈ route.upcoming feed scan)
    (hposition : position = scan ∨ position = some e.globalSequence)
    (hafter : StoreFeed.isAfter position x.globalSequence = true) :
    StoreFeed.isAfter scan x.globalSequence = true := by
  rcases hposition with rfl | rfl
  · exact hafter
  · have hlt := isAfter_some.mp hafter
    have hscan := (StreamRoute.mem_upcoming.mp he).2.2
    cases scan with
    | none => rfl
    | some scan => exact isAfter_some.mpr (lt_trans (isAfter_some.mp hscan) hlt)

/-- An entry to come goes out. -/
theorem InOrder.deliver {position : Option U64} {flag : Bool}
    (h : InOrder route m) (hfollows : Follows route m.sent m.session)
    (hs : s = { m.session with scanAfter := position, lastQueryReturnedEmpty := flag })
    (he : e ∈ route.upcoming m.feed m.session.scanAfter)
    (hstops : stopsAt route allReadable e = true) :
    InOrder route ({ m with session :=
        { s.send route (.afterGlobalSequence route.cursors e.globalSequence e.wallMs) with
          scanAfter := some e.globalSequence } }.emit (s.eventDelivery route e)) := by
  obtain ⟨hvisible, hregion, hafter⟩ := StreamRoute.mem_upcoming.mp he
  have hreached : Reached m.feed.visible (some e.globalSequence) := ⟨e, hvisible, le_refl _⟩
  have hposition := route.positionOf_runtimeCursor e.globalSequence e.wallMs
  have hentry : stopsAtEntry route e = true := by simp [stopsAtEntry, hregion, hstops]
  subst hs
  refine ⟨⟨?_, .inr hreached⟩, ?_, ?_, h.linked.concat ?_, .inr ?_, h.terminal,
    fun hstage => absurd rfl hstage⟩
  · exact h.reached.sent.send (w := e.wallMs) hreached
  · change (eventsOf (m.sent ++ [_])).Pairwise _
    rw [eventsOf_concat]
    apply List.pairwise_append.mpr
    refine ⟨h.events, List.pairwise_singleton _ _, ?_⟩
    intro a ha b hb
    obtain ⟨p, hp, -, hahead⟩ := h.ahead a ha
    rw [List.mem_singleton.mp hb]
    exact ⟨p, hp, _, hposition, hahead e hvisible hentry hafter⟩
  · change Ahead _ _ _ (eventsOf (m.sent ++ [_]))
    rw [eventsOf_concat]
    intro event hevent
    rcases List.mem_append.mp hevent with hold | hnew
    · apply (h.ahead.mono _) event hold
      intro x hx _ hpast
      exact isAfter_of_upcoming he (.inr rfl) hpast
    · rw [List.mem_singleton.mp hnew]
      exact ⟨_, hposition, hreached, fun x _ _ hpast => isAfter_some.mp hpast⟩
  · intro event hevent last hlast
    cases hevent
    exact hfollows last hlast
  · intro d hd
    change d ∈ (m.sent ++ [_]).getLast? at hd
    rw [List.getLast?_concat] at hd
    cases hd
    rfl

/-- A pass that stops at an entry: it goes out, or the session ends on it. -/
theorem InOrder.stop (woken : Bool) (h : InOrder route m)
    (hfollows : Follows route m.sent m.session) (hroom : m.session.inFlight < route.queueCap)
    (he : e ∈ route.upcoming m.feed m.session.scanAfter)
    (hstops : stopsAt route allReadable e = true) :
    InOrder route (afterPage woken m (stopAt route allReadable (placedAt route m.session e) e)) := by
  obtain ⟨position, flag, hplaced, hposition⟩ := @placedAt_eq route m.session e
  generalize placedAt route m.session e = s at hplaced
  have hwindow : s.inFlight < route.queueCap := by
    rw [hplaced]
    exact hroom
  unfold stopAt
  rw [if_neg (by simp)]
  split_ifs with hundecodable
  · subst hplaced
    apply h.emitEnded
    · refine ⟨h.reached.sent, ?_⟩
      rcases hposition with rfl | rfl
      · exact h.reached.scan
      · exact .inr ⟨e, (StreamRoute.mem_upcoming.mp he).1, le_refl _⟩
    · apply h.ahead.mono
      intro x _ _ hafter
      exact isAfter_of_upcoming he hposition hafter
    · rfl
    · intro event hevent
      cases hevent
    · intro x hx event hevent
      cases hx
      cases hevent
  · unfold deliverEntry
    rw [if_neg (Nat.not_le.mpr hwindow), if_neg Bool.false_ne_true]
    exact h.deliver hfollows hplaced he hstops

theorem InOrder.follows (h : InOrder route m) (hstage : m.stage ≠ .idle) :
    Follows route m.sent m.session := by
  rcases h.next with ⟨hidle, -⟩ | hfollows
  · exact absurd hidle hstage
  · exact hfollows

theorem InOrder.pass (h : InOrder route m) (hroom : m.session.inFlight < route.queueCap) :
    InOrder route (sessionStep route m .pass) := by
  change InOrder route (passSteps route _ m)
  by_cases hquery : ∃ woken, m.stage = .querying woken
  · obtain ⟨woken, hwoken⟩ := hquery
    have hfollows := h.follows (by simp [hwoken])
    rw [passSteps_eq hwoken (length_upcoming_lt _ _)]
    cases hfind : (route.upcoming m.feed m.session.scanAfter).find?
        (stopsAt route allReadable) with
    | some e =>
        exact h.stop woken hfollows hroom (List.mem_of_find?_eq_some hfind)
          (List.find?_some hfind)
    | none =>
        have hpassed : InOrder route { m with
            session := { m.session with
              scanAfter := passedPosition route m.feed m.session.scanAfter
              lastQueryReturnedEmpty :=
                route.source.scans || m.session.lastQueryReturnedEmpty } } := by
          refine ⟨⟨h.reached.sent, ?_⟩, h.events, ?_, h.linked, .inr hfollows, h.terminal,
            h.running⟩
          · rcases @passedPosition_reached route m.session.scanAfter m.feed with hstays | hreached
            · dsimp only
              rw [hstays]
              exact h.reached.scan
            · exact .inr hreached
          · apply h.ahead.mono
            intro e he hstops hafter
            rw [passedPosition_sameSide hfind e he hstops]
            exact hafter
        dsimp only
        rw [passedAll_eq]
        unfold afterPage
        dsimp only
        split_ifs
        · exact ⟨⟨hpassed.reached.sent, hpassed.reached.scan⟩, hpassed.events, hpassed.ahead,
            hpassed.linked, .inr hfollows, hpassed.terminal,
            fun _ => h.running (by simp [hwoken])⟩
        · exact ⟨⟨hpassed.reached.sent, hpassed.reached.scan⟩, hpassed.events, hpassed.ahead,
            hpassed.linked, .inr hfollows, hpassed.terminal,
            fun _ => h.running (by simp [hwoken])⟩
  · rw [passSteps_done fun woken hw => hquery ⟨woken, hw⟩]
    exact h

/-- A watermark goes out: nothing the scan stops at lies between it and the scan position. -/
theorem InOrder.emitWatermark (h : InOrder route m) (hsent : SentReached route m.feed.visible s)
    (hscan : s.scanAfter = some m.feed.frontier.globalSequence)
    (hreached : Reached m.feed.visible (some m.feed.frontier.globalSequence))
    (hkept : ∀ e ∈ m.feed.visible, stopsAtEntry route e = true →
      StoreFeed.isAfter m.session.scanAfter e.globalSequence = false →
        e.globalSequence ≤ m.feed.frontier.globalSequence)
    (hcursor : s.cursorBeforeNext = .afterGlobalSequence route.cursors
      m.feed.frontier.globalSequence m.feed.frontier.wallMs) (hterminal : s.terminal = none) :
    InOrder route ({ m with session := s }.emit
      (m.session.watermarkDelivery route m.feed.frontier)) := by
  have hevents : eventsOf (m.sent ++ [m.session.watermarkDelivery route m.feed.frontier]) =
      eventsOf m.sent := by
    rw [eventsOf_concat]
    exact List.append_nil _
  refine ⟨⟨hsent, .inr (hscan ▸ hreached)⟩, ?_, ?_, h.linked.concat ?_, .inr ?_, ?_,
    fun hstage => absurd rfl hstage⟩
  · change (eventsOf (m.sent ++ [_])).Pairwise _
    rw [hevents]
    exact h.events
  · change Ahead _ _ s.scanAfter (eventsOf (m.sent ++ [_]))
    rw [hevents, hscan]
    apply h.ahead.mono
    intro e he hstops hafter
    by_contra hbehind
    have hle := hkept e he hstops (Bool.not_eq_true _ ▸ hbehind)
    exact absurd hle (not_le_of_gt (isAfter_some.mp hafter))
  · intro event hevent
    cases hevent
  · intro d hd
    change d ∈ (m.sent ++ [_]).getLast? at hd
    rw [List.getLast?_concat] at hd
    cases hd
    change some _ = some (route.runtimeCursor s.cursorBeforeNext)
    rw [hcursor]
  · intro d hd
    change d ∈ s.terminal at hd
    rw [hterminal] at hd
    cases hd

theorem InOrder.frontierStep {woken : Bool} (h : InOrder route m)
    (hstage : m.stage = .readingFrontier woken) (hroom : m.session.inFlight < route.queueCap)
    (hkept : ScanKept route m .frontier) : InOrder route (frontierStep route woken m) := by
  have hfollows := h.follows (by simp [hstage])
  have hrunning := h.running (by simp [hstage])
  have hterminal : m.session.terminal = none := by
    cases hd : m.session.terminal with
    | none => rfl
    | some d => exact absurd (h.terminal d hd).1 hrunning
  unfold Batpak.Syncbat.frontierStep
  rcases @maybeEmitWatermark_cases route m.feed.frontier m.session with
    heq | heq | ⟨hempty, hlater, hwindow, heq⟩
  · rw [heq]
    cases woken with
    | true =>
        exact ⟨⟨h.reached.sent, h.reached.scan⟩, h.events, h.ahead, h.linked, .inr hfollows,
          h.terminal, fun hstage => absurd rfl hstage⟩
    | false =>
        refine ⟨⟨h.reached.sent, h.reached.scan⟩, h.events, h.ahead, h.linked, .inr hfollows,
          ?_, fun _ => by simp [afterFrontier, afterFirstPass]⟩
        intro d hd
        rw [show (afterFrontier false m (m.session, none)).session.terminal = none from
          hterminal] at hd
        cases hd
  · have hfull : maybeEmitWatermark route m.feed.frontier m.session ≠
        ((slowConsumer route m.session).1, some (slowConsumer route m.session).2) := by
      unfold maybeEmitWatermark
      rw [if_neg (Nat.not_le.mpr hroom)]
      split_ifs
      · simp
      · simp
      · simp [slowConsumer, StreamSession.watermarkDelivery, StreamSession.slowConsumerError,
          StreamSession.errorDelivery]
    exact absurd heq hfull
  · rw [heq]
    have hreached : Reached m.feed.visible (some m.feed.frontier.globalSequence) :=
      frontier_visible hlater
    have hdue := watermarkDue_of hstage hempty hlater hwindow
    have hsent := h.reached.sent.send (w := m.feed.frontier.wallMs) hreached
    cases woken with
    | true => exact h.emitWatermark hsent rfl hreached (hkept hdue) rfl hterminal
    | false => exact h.emitWatermark hsent rfl hreached (hkept hdue) rfl hterminal

theorem InOrder.publish (h : InOrder route m) (entries : List StreamEntry) (last : StreamEntry) :
    InOrder route { m with feed := m.feed.publish entries last } := by
  obtain ⟨added, hvisible, hordered⟩ := publish_visible m.feed entries last
  refine ⟨⟨?_, ?_⟩, h.events, ?_, h.linked, h.next, h.terminal, h.running⟩
  · dsimp only
    rw [hvisible]
    exact h.reached.sent.append
  · dsimp only
    rw [hvisible]
    exact h.reached.scan.imp_right fun hreached => hreached.append added
  · dsimp only
    rw [hvisible]
    exact h.ahead.append hordered

theorem InOrder.settle (h : InOrder route m) :
    InOrder route { m with feed := m.feed.settle } := by
  refine ⟨⟨?_, ?_⟩, h.events, ?_, h.linked, h.next, h.terminal, h.running⟩
  · dsimp only
    rw [settle_visible]
    exact h.reached.sent
  · dsimp only
    rw [settle_visible]
    exact h.reached.scan
  · dsimp only
    rw [settle_visible]
    exact h.ahead

theorem InOrder.step {step : SessionStep} (h : InOrder route m)
    (hset : AcksAndWindow route m step) (hkept : ScanKept route m step) :
    InOrder route (sessionStep route m step) := by
  cases step with
  | publish entries last => exact h.publish entries last
  | settle => exact h.settle
  | control input =>
      exact ⟨⟨h.reached.sent, h.reached.scan⟩, h.events, h.ahead, h.linked, h.next, h.terminal,
        h.running⟩
  | pass => exact h.pass hset
  | poll =>
      cases hidle : m.stage with
      | idle =>
          simp only [sessionStep, streamStep, hidle]
          apply h.orEnded
          intro _ _
          exact h.takeControl false (hset hidle) (hkept hidle)
      | _ => simpa only [sessionStep, streamStep, hidle] using h
  | frontier =>
      cases hreading : m.stage with
      | readingFrontier woken =>
          simp only [sessionStep, streamStep, hreading]
          exact h.frontierStep hreading hset hkept
      | _ => simpa only [sessionStep, streamStep, hreading] using h
  | wake notified =>
      cases hwaiting : m.stage with
      | waiting =>
          simp only [sessionStep, streamStep, hwaiting]
          cases notified with
          | true => exact h.takeControl true (hset hwaiting rfl) (hkept hwaiting rfl)
          | false =>
              have hfollows := h.follows (by simp [hwaiting])
              exact ⟨⟨h.reached.sent, h.reached.scan⟩, h.events, h.ahead, h.linked,
                .inr hfollows, h.terminal, fun hstage => absurd rfl hstage⟩
      | _ => simpa only [sessionStep, streamStep, hwaiting] using h

end Order

/-! ### Two runs -/

section Runs

variable {route : StreamRoute} {m₁ m₂ : StreamMachine}

/-- The setting and the condition together. -/
def StepOk (route : StreamRoute) (m : StreamMachine) (step : SessionStep) : Prop :=
  AcksAndWindow route m step ∧ ScanKept route m step

/-- The events go out in commit order, each takes up the cursor of the delivery before it, and
none goes out twice. -/
structure OrderedDeliveries (route : StreamRoute) (sent : List SessionDelivery) : Prop where
  increasing : (eventsOf sent).Pairwise (Before route)
  linked : Linked sent
  once : ((eventsOf sent).map fun event => route.positionOf event.cursorAfter).Nodup

/-- The steps that are not control inputs. -/
def withoutControls (steps : List SessionStep) : List SessionStep :=
  steps.filter fun step => !step.isControl

theorem inOrder_run {steps : List SessionStep} (h : InOrder route m₁)
    (hsteps : Guarded (sessionStep route) (StepOk route) m₁ steps) :
    InOrder route (run (sessionStep route) m₁ steps) := by
  apply run_invariant _ steps m₁ h hsteps
  intro m step hm hok
  exact hm.step hok.1 hok.2

/-- Control inputs only wait in the inbox. -/
theorem Agree.controls {steps : List SessionStep} (h : Agree route m₁ m₂)
    (hsteps : ∀ step ∈ steps, step.isControl = true) :
    Agree route m₁ (run (sessionStep route) m₂ steps) := by
  induction steps generalizing m₂ with
  | nil => exact h
  | cons step rest ih =>
      have hcontrol := hsteps step List.mem_cons_self
      have hrest := fun x hx => hsteps x (List.mem_cons_of_mem step hx)
      cases step with
      | control input =>
          have hnext : Agree route m₁ (sessionStep route m₂ (.control input)) :=
            ⟨h.feed, h.stage, h.session, h.sent, h.scan⟩
          exact ih hnext hrest
      | _ => cases hcontrol

theorem Agree.symm (h : Agree route m₁ m₂) : Agree route m₂ m₁ := by
  refine ⟨h.feed.symm, h.stage.symm, h.session.symm, h.sent.symm, ?_⟩
  rw [← h.feed]
  rcases h.scan with heq | ⟨h₁, h₂, hsame⟩
  · exact .inl heq.symm
  · exact .inr ⟨h₂, h₁, fun e he hstops => (hsame e he hstops).symm⟩

/-- Runs with the same other steps agree to their ends. -/
theorem Agree.run {steps₁ steps₂ : List SessionStep} (h : Agree route m₁ m₂)
    (h₁ : InOrder route m₁) (h₂ : InOrder route m₂)
    (hsame : withoutControls steps₁ = withoutControls steps₂)
    (hsteps₁ : Guarded (sessionStep route) (StepOk route) m₁ steps₁)
    (hsteps₂ : Guarded (sessionStep route) (StepOk route) m₂ steps₂) :
    Agree route (run (sessionStep route) m₁ steps₁) (run (sessionStep route) m₂ steps₂) := by
  induction steps₁ generalizing m₁ m₂ steps₂ with
  | nil =>
      apply h.controls
      intro step hstep
      have hnone := List.filter_eq_nil_iff.mp hsame.symm step hstep
      simpa using hnone
  | cons step rest ih =>
      cases hcontrol : step.isControl with
      | true =>
          have hleft : Agree route (sessionStep route m₁ step) m₂ := by
            have hone : Agree route m₂ (Util.run (sessionStep route) m₁ [step]) := by
              apply h.symm.controls
              simp [hcontrol]
            exact hone.symm
          have hrest : withoutControls rest = withoutControls steps₂ := by
            rw [← hsame, withoutControls, withoutControls, List.filter_cons_of_neg]
            simp [hcontrol]
          exact ih hleft (h₁.step hsteps₁.1.1 hsteps₁.1.2) h₂ hrest hsteps₁.2 hsteps₂
      | false =>
          have hcons : withoutControls steps₂ = step :: withoutControls rest := by
            rw [← hsame, withoutControls, withoutControls, List.filter_cons_of_pos]
            simp [hcontrol]
          obtain ⟨inputs, after, rfl, hinputs, -, hafter⟩ := List.filter_eq_cons_iff.mp hcons
          rw [guarded_append] at hsteps₂
          rw [run_append]
          have hright : Agree route m₁ (Util.run (sessionStep route) m₂ inputs) := by
            apply h.controls
            intro input hinput
            simpa using hinputs input hinput
          have hright₂ := inOrder_run h₂ hsteps₂.1
          have hboth := hright.step h₁.reached hright₂.reached hsteps₁.1.1 hsteps₂.2.1.1
            hsteps₁.1.2 hsteps₂.2.1.2 hcontrol
          rw [Util.run_cons, Util.run_cons]
          exact ih hboth (h₁.step hsteps₁.1.1 hsteps₁.1.2)
            (hright₂.step hsteps₂.2.1.1 hsteps₂.2.1.2) hafter.symm hsteps₁.2 hsteps₂.2.2

theorem agree_refl (m : StreamMachine) : Agree route m m :=
  ⟨rfl, rfl, rfl, rfl, .inl rfl⟩

theorem eventsOf_forgetAcks (sent : List SessionDelivery) :
    eventsOf (sent.map SessionDelivery.forgetAcks) = eventsOf sent := by
  unfold eventsOf
  rw [List.filterMap_map]
  apply List.filterMap_congr
  intro d _
  cases d with
  | event event => rfl
  | watermark watermark => rfl
  | error error => rfl
  | ended ended => rfl

theorem inOrder_start {feed : StoreFeed} {start : Option RuntimeCursor} {first : StreamSession}
    (hopen : route.openSession start = .ok first) :
    InOrder route (.start feed first) := by
  obtain ⟨parsed, -, -, hsent, -, hterminal, -⟩ := StreamRoute.openSession_ok _ hopen
  refine ⟨⟨?_, .inl hsent⟩, List.Pairwise.nil, ?_, ?_, .inr ?_, ?_, fun h => absurd rfl h⟩
  · intro x hx
    change x ∈ first.sentCursors at hx
    rw [hsent] at hx
    cases hx
  · intro event hevent
    cases hevent
  · intro n d event hd
    cases hd
  · intro d hd
    cases hd
  · intro d hd
    change d ∈ first.terminal at hd
    rw [hterminal] at hd
    cases hd

theorem before_ne {a b : SessionEventDelivery} (h : Before route a b) :
    route.positionOf a.cursorAfter ≠ route.positionOf b.cursorAfter := by
  intro heq
  obtain ⟨p, hp, q, hq, hlt⟩ := h
  rw [heq] at hp
  rw [Option.mem_unique hp hq] at hlt
  exact absurd hlt (lt_irrefl q)

/-- In every two runs that differ only in when valid acknowledgements arrive, and in which none
of them and no watermark moves the scan across an event it stops at, the same events are
delivered, in commit order, linked and once. -/
theorem acks_never_change_deliveries (route : StreamRoute) (feed : StoreFeed)
    (start : Option RuntimeCursor) (first : StreamSession)
    (hopen : route.openSession start = .ok first) (steps₁ steps₂ : List SessionStep)
    (hsame : withoutControls steps₁ = withoutControls steps₂)
    (hsteps₁ : Guarded (sessionStep route) (StepOk route) (.start feed first) steps₁)
    (hsteps₂ : Guarded (sessionStep route) (StepOk route) (.start feed first) steps₂) :
    eventsOf (run (sessionStep route) (.start feed first) steps₁).sent =
        eventsOf (run (sessionStep route) (.start feed first) steps₂).sent ∧
      OrderedDeliveries route (run (sessionStep route) (.start feed first) steps₁).sent := by
  have hstart := @inOrder_start route feed start first hopen
  have hagree := Agree.run (agree_refl (.start feed first)) hstart hstart hsame hsteps₁ hsteps₂
  have horder := inOrder_run hstart hsteps₁
  refine ⟨?_, horder.events, horder.linked, ?_⟩
  · rw [← eventsOf_forgetAcks, hagree.sent, eventsOf_forgetAcks]
  · apply List.pairwise_map.mpr
    apply horder.events.imp
    exact before_ne

end Runs

/-! ### An acknowledgement behind the scan -/

section Lagging

instance decidableAcksValid (route : StreamRoute) :
    (s : StreamSession) → (inbox : List SessionControl) → Decidable (AcksValid route s inbox)
  | _, [] => inferInstanceAs (Decidable True)
  | s, .ack index cursor :: rest =>
      have := decidableAcksValid route (s.applyAck route index cursor) rest
      inferInstanceAs (Decidable (_ ∧ _))
  | _, .cancel :: _ => inferInstanceAs (Decidable False)
  | _, .disconnected :: _ => inferInstanceAs (Decidable False)
  | _, .malformed :: _ => inferInstanceAs (Decidable False)

instance (route : StreamRoute) (m : StreamMachine) (step : SessionStep) :
    Decidable (AcksAndWindow route m step) :=
  match step with
  | .control (.ack _ _) => inferInstanceAs (Decidable True)
  | .control .cancel | .control .disconnected | .control .malformed =>
      inferInstanceAs (Decidable False)
  | .poll => inferInstanceAs (Decidable (_ → _))
  | .wake _ => inferInstanceAs (Decidable (_ → _ → _))
  | .pass | .frontier => inferInstanceAs (Decidable (_ < _))
  | .publish _ _ | .settle => inferInstanceAs (Decidable True)

instance (route : StreamRoute) (m : StreamMachine) : Decidable (AckKeepsPlace route m) :=
  inferInstanceAs (Decidable (_ → _))

instance (route : StreamRoute) (m : StreamMachine) (step : SessionStep) :
    Decidable (ScanKept route m step) :=
  match step with
  | .poll => inferInstanceAs (Decidable (_ → _))
  | .wake _ => inferInstanceAs (Decidable (_ → _ → _))
  | .frontier => inferInstanceAs (Decidable (_ → ∀ _ ∈ _, _ → _ → _))
  | .control _ | .pass | .publish _ _ | .settle => inferInstanceAs (Decidable True)

instance (route : StreamRoute) (m : StreamMachine) (step : SessionStep) :
    Decidable (StepOk route m step) :=
  inferInstanceAs (Decidable (_ ∧ _))

/-- A subscription to the events of one entity. -/
def entityRoute : StreamRoute where
  subscriptionId := ascii "a.v1"
  source := .entityStream "entity" "scope"
  wirePayloadSchemaRef := ascii "schema"
  queueCap := 4
  pageSize := 2
  cursors :=
    ⟨entityStreamCursorV1, 0, List.replicate 32 0, "", "cursor subscription id hash mismatch",
      "cursor coordinate hash mismatch", rfl, fun _ => rfl⟩
  reader := ⟨fun _ => none, fun e => e.payload⟩
  capPos := Nat.zero_lt_succ _
  pagePos := Nat.zero_lt_succ _
  formatEq := rfl

/-- The session of a client that starts at the beginning. -/
def entitySession : StreamSession where
  phase := .replaying
  scanAfter := none
  cursorBeforeNext := .beginning entityRoute.cursors
  deliveryIndex := 1
  lastSentDeliveryIndex := 0
  lastAckedDeliveryIndex := 0
  lastDeliveredCursor := none
  lastAckedCursor := none
  sentCursors := []
  lastWatermarkedVisibleSeq := 0
  lastQueryReturnedEmpty := false
  terminal := none

def entityEvent (sequence : U64) : StreamEntry :=
  ⟨sequence.val, sequence, 0, ⟨"entity", "scope"⟩, ⟨0x1000⟩, [UInt8.ofNat sequence.val]⟩

/-- A store with two events of the entity. -/
def twoEvents : StoreFeed where
  visible := [entityEvent 0, entityEvent 1]
  frontier := ⟨0, 1⟩
  pending := none
  ordered := by decide
  reached := .inr ⟨entityEvent 1, by simp, le_refl _⟩
  pendingReached := by
    intro point hpoint
    cases hpoint

/-- The acknowledgement of a delivery at an event. -/
def ackAt (index : Nat) (sequence : U64) : SessionStep :=
  .control (.ack index (entityRoute.runtimeCursor
    (.afterGlobalSequence entityRoute.cursors sequence 0)))

/-- Two deliveries and the poll behind them. -/
def twoDeliveries : List SessionStep :=
  [.poll, .pass, .poll, .pass, .poll, .pass, .frontier]

/-- The same, each delivery acknowledged before the next poll. -/
def promptAcks : List SessionStep :=
  [.poll, .pass, ackAt 1 0, .poll, .pass, ackAt 2 1, .poll, .pass, .frontier]

theorem promptAcks_deliver_the_same :
    entityRoute.openSession none = .ok entitySession ∧
      withoutControls promptAcks = withoutControls twoDeliveries ∧
      Guarded (sessionStep entityRoute) (StepOk entityRoute) (.start twoEvents entitySession)
        promptAcks ∧
      Guarded (sessionStep entityRoute) (StepOk entityRoute) (.start twoEvents entitySession)
        twoDeliveries ∧
      (run (sessionStep entityRoute) (.start twoEvents entitySession)
        promptAcks).sent.length = 3 ∧
      eventsOf (run (sessionStep entityRoute) (.start twoEvents entitySession)
          promptAcks).sent =
        eventsOf (run (sessionStep entityRoute) (.start twoEvents entitySession)
          twoDeliveries).sent ∧
      OrderedDeliveries entityRoute
        (run (sessionStep entityRoute) (.start twoEvents entitySession) promptAcks).sent := by
  have hsteps₁ : Guarded (sessionStep entityRoute) (StepOk entityRoute)
      (.start twoEvents entitySession) promptAcks := by
    decide +kernel
  have hsteps₂ : Guarded (sessionStep entityRoute) (StepOk entityRoute)
      (.start twoEvents entitySession) twoDeliveries := by
    decide +kernel
  exact ⟨rfl, rfl, hsteps₁, hsteps₂, by decide +kernel,
    acks_never_change_deliveries entityRoute twoEvents none entitySession rfl promptAcks
      twoDeliveries rfl hsteps₁ hsteps₂⟩

/-- The first delivery is acknowledged after the second one has been sent. -/
def lateAck : List SessionStep :=
  [.poll, .pass, .poll, .pass, ackAt 1 0, .poll, .pass, .frontier]

/-- The scan goes back to the acknowledged cursor and delivers the second event again. -/
theorem lateAck_delivers_again :
    entityRoute.openSession none = .ok entitySession ∧
      withoutControls lateAck = withoutControls twoDeliveries ∧
      Guarded (sessionStep entityRoute) (AcksAndWindow entityRoute)
        (.start twoEvents entitySession) lateAck ∧
      Guarded (sessionStep entityRoute) (AcksAndWindow entityRoute)
        (.start twoEvents entitySession) twoDeliveries ∧
      eventsOf (run (sessionStep entityRoute) (.start twoEvents entitySession) lateAck).sent ≠
        eventsOf (run (sessionStep entityRoute) (.start twoEvents entitySession)
          twoDeliveries).sent ∧
      ¬OrderedDeliveries entityRoute
        (run (sessionStep entityRoute) (.start twoEvents entitySession) lateAck).sent := by
  refine ⟨rfl, rfl, by decide +kernel, by decide +kernel, by decide +kernel, ?_⟩
  intro h
  have htwice : ¬((eventsOf (run (sessionStep entityRoute) (.start twoEvents entitySession)
      lateAck).sent).map fun event => entityRoute.positionOf event.cursorAfter).Nodup := by
    decide +kernel
  exact htwice h.once

end Lagging

end Batpak.Syncbat
