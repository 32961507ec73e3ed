/-
Module: Batpak.Proofs.StreamRules
Purpose: What the steps of a subscription session can do to its scan position.
Trusted boundary: none
Main exports: StreamRoute.upcoming, upcoming_next
-/
import Batpak.Syncbat.StreamSession
import Batpak.Util.Scan

namespace Batpak.Syncbat

open Batpak.Util

/-! ### Cursors -/

/-- The cursor a delivery leaves the client at. -/
def SessionDelivery.cursorAfter : SessionDelivery → Option RuntimeCursor
  | .event sent => some sent.cursorAfter
  | .watermark sent => some sent.cursorAfter
  | .error _ => none
  | .ended sent => sent.cursorAfter

namespace StreamRoute

variable (route : StreamRoute)

/-- The sequence a cursor stands at. -/
def positionOf (cursor : RuntimeCursor) : Option U64 :=
  match StreamCursor.decode route.cursors.format cursor with
  | .ok decoded => decoded.resumeAfterGlobalSequence
  | .error _ => none

theorem positionOf_runtimeCursor (p w : U64) :
    route.positionOf (route.runtimeCursor (.afterGlobalSequence route.cursors p w)) = some p := by
  unfold positionOf runtimeCursor
  rw [StreamCursor.decode_encode (StreamCursor.ofRoute_afterGlobalSequence route.cursors p w)]
  rfl

/-- A session that has just been opened. -/
theorem openSession_ok {resumeCursor : Option RuntimeCursor} {session : StreamSession}
    (h : route.openSession resumeCursor = .ok session) :
    ∃ parsed, route.parseResumeCursor resumeCursor = .ok parsed ∧
      session.scanAfter = parsed.resumeAfterGlobalSequence ∧ session.sentCursors = [] ∧
        session.lastDeliveredCursor = none ∧ session.terminal = none ∧
          session.phase = .replaying := by
  obtain ⟨parsed, hparsed, hsession⟩ := bindOk_iff.mp h
  cases hsession
  exact ⟨parsed, hparsed, rfl, rfl, rfl, rfl, rfl⟩

end StreamRoute

/-! ### Acknowledgements -/

/-- A session that acknowledges a sent cursor. -/
def StreamSession.acked (route : StreamRoute) (s : StreamSession) (index : Nat)
    (cursor : RuntimeCursor) (decoded : StreamCursor) : StreamSession :=
  { s with
    lastAckedDeliveryIndex := index
    lastAckedCursor := some cursor
    scanAfter :=
      if route.source.scans then decoded.resumeAfterGlobalSequence else s.scanAfter }

/-- An acknowledgement that can be accepted: of an index that was sent and not before the last
one acknowledged, with the cursor sent under it. -/
structure AckAccepted (route : StreamRoute) (s : StreamSession) (index : Nat)
    (cursor : RuntimeCursor) (decoded : StreamCursor) : Prop where
  pos : 0 < index
  sent : index ≤ s.lastSentDeliveryIndex
  decodes : StreamCursor.decode route.cursors.format cursor = .ok decoded
  bound : decoded.validateRoute route.cursors = .ok ()
  recorded : s.sentCursor index = some cursor
  forward : s.lastAckedDeliveryIndex ≤ index

theorem ackInvalidError_eq (route : StreamRoute) (s : StreamSession) (reason : String) :
    ∃ code, s.ackInvalidError route reason = s.errorDelivery route code reason := by
  unfold StreamSession.ackInvalidError
  split
  · exact ⟨_, rfl⟩
  · exact ⟨_, rfl⟩

/-- An acknowledgement ends the session or is accepted. -/
theorem applyAck_cases (route : StreamRoute) (s : StreamSession) (index : Nat)
    (cursor : RuntimeCursor) :
    (∃ code message, s.applyAck route index cursor =
      s.endWith (s.errorDelivery route code message)) ∨
    (∃ decoded, AckAccepted route s index cursor decoded ∧
      s.applyAck route index cursor = s.acked route index cursor decoded) := by
  have hinvalid (reason : String) : ∃ code message,
      s.endWith (s.ackInvalidError route reason) =
        s.endWith (s.errorDelivery route code message) := by
    obtain ⟨code, hcode⟩ := ackInvalidError_eq route s reason
    exact ⟨code, reason, by rw [hcode]⟩
  unfold StreamSession.applyAck
  split
  · exact .inl (hinvalid _)
  next hrange =>
    rw [not_or, Nat.not_lt] at hrange
    split
    · exact .inl (hinvalid _)
    next decoded hdecoded =>
      split
      · exact .inl ⟨_, _, rfl⟩
      next hbound =>
        split
        · exact .inl (hinvalid _)
        next expected hexpected =>
          by_cases hother : expected ≠ cursor
          · rw [if_pos hother]
            exact .inl (hinvalid _)
          · rw [if_neg hother]
            rw [not_not] at hother
            subst hother
            by_cases hregressed : index < s.lastAckedDeliveryIndex
            · rw [if_pos hregressed]
              exact .inl (hinvalid _)
            · rw [if_neg hregressed]
              exact .inr ⟨decoded, ⟨Nat.pos_of_ne_zero hrange.1, hrange.2, hdecoded, hbound,
                hexpected, Nat.not_lt.mp hregressed⟩, rfl⟩

theorem AckAccepted.mem_sentCursors {route : StreamRoute} {s : StreamSession} {index : Nat}
    {cursor : RuntimeCursor} {decoded : StreamCursor}
    (h : AckAccepted route s index cursor decoded) : (index, cursor) ∈ s.sentCursors := by
  obtain ⟨before, after, heq, -⟩ := List.lookup_eq_some_iff.mp h.recorded
  rw [heq]
  simp

/-! ### Entries to come -/

/-- A publish adds entries past the visible ones, or nothing. -/
theorem publish_visible (feed : StoreFeed) (entries : List StreamEntry) (last : StreamEntry) :
    ∃ added, (feed.publish entries last).visible = feed.visible ++ added ∧
      InCommitOrder (feed.visible ++ added) := by
  unfold StoreFeed.publish
  split_ifs with h
  · exact ⟨_, rfl, h.2⟩
  · refine ⟨[], (List.append_nil _).symm, ?_⟩
    rw [List.append_nil]
    exact feed.ordered

/-- A frontier that has moved stands at or below a visible entry. -/
theorem frontier_visible {feed : StoreFeed} {p : U64} (h : p < feed.frontier.globalSequence) :
    ∃ e ∈ feed.visible, feed.frontier.globalSequence ≤ e.globalSequence := by
  rcases feed.reached with hzero | hvisible
  · rw [hzero] at h
    exact absurd h (Fin.not_lt_zero _)
  · exact hvisible

theorem settle_visible (feed : StoreFeed) : feed.settle.visible = feed.visible := by
  unfold StoreFeed.settle
  split
  · rfl
  · rfl

theorem isAfter_some {position sequence : U64} :
    StoreFeed.isAfter (some position) sequence = true ↔ position < sequence :=
  decide_eq_true_iff

namespace StreamRoute

variable (route : StreamRoute)

def inRegion (e : StreamEntry) : Bool :=
  route.source.region.matchesEventOnLane e.coord.entity e.coord.scope e.kind none

/-- The events a subscription is for. -/
def wants (e : StreamEntry) : Bool :=
  route.inRegion e && classify route.reader route.source e = .deliver

/-- The visible entries of the region past a position. -/
def upcoming (feed : StoreFeed) (position : Option U64) : List StreamEntry :=
  feed.visible.filter fun e => route.inRegion e && StoreFeed.isAfter position e.globalSequence

variable {route} {feed : StoreFeed} {position : Option U64} {e : StreamEntry}

theorem queryEntriesAfter_eq (limit : Nat) :
    feed.queryEntriesAfter route.source.region position limit =
      (route.upcoming feed position).take limit :=
  rfl

theorem mem_upcoming :
    e ∈ route.upcoming feed position ↔
      e ∈ feed.visible ∧ route.inRegion e = true ∧
        StoreFeed.isAfter position e.globalSequence = true := by
  simp [upcoming]

theorem upcoming_ordered : InCommitOrder (route.upcoming feed position) :=
  feed.ordered.sublist List.filter_sublist

/-- Past the entries of a first part, the rest is to come. -/
theorem upcoming_next {skipped rest : List StreamEntry}
    (h : route.upcoming feed position = skipped ++ e :: rest) :
    route.upcoming feed (some e.globalSequence) = rest := by
  have hordered : InCommitOrder (skipped ++ e :: rest) := h ▸ upcoming_ordered
  obtain ⟨-, htail, hcross⟩ := List.pairwise_append.mp hordered
  have hrest := (List.pairwise_cons.mp htail).1
  have hafter : StoreFeed.isAfter position e.globalSequence = true := by
    have hmem : e ∈ route.upcoming feed position := by simp [h]
    exact (mem_upcoming.mp hmem).2.2
  have hlater (x : StreamEntry) (hx : e.globalSequence < x.globalSequence) :
      StoreFeed.isAfter position x.globalSequence = true := by
    cases position with
    | none => rfl
    | some p => exact isAfter_some.mpr (lt_trans (isAfter_some.mp hafter) hx)
  have hfilter : route.upcoming feed (some e.globalSequence) =
      (route.upcoming feed position).filter fun x =>
        StoreFeed.isAfter (some e.globalSequence) x.globalSequence := by
    unfold upcoming
    rw [List.filter_filter]
    apply List.filter_congr
    intro x _
    rw [Bool.eq_iff_iff]
    simp only [Bool.and_eq_true, isAfter_some]
    constructor
    · rintro ⟨hregion, hx⟩
      exact ⟨hx, hregion, hlater x hx⟩
    · rintro ⟨hx, hregion, -⟩
      exact ⟨hregion, hx⟩
  rw [hfilter, h, List.filter_append, List.filter_cons]
  have hskipped : skipped.filter (fun x =>
      StoreFeed.isAfter (some e.globalSequence) x.globalSequence) = [] := by
    apply List.filter_eq_nil_iff.mpr
    intro x hx hafter
    exact lt_asymm (isAfter_some.mp hafter) (hcross x hx e List.mem_cons_self)
  have hself : ¬StoreFeed.isAfter (some e.globalSequence) e.globalSequence = true := by
    intro hself
    exact lt_irrefl _ (isAfter_some.mp hself)
  rw [hskipped, if_neg hself, List.nil_append]
  apply List.filter_eq_self.mpr
  intro x hx
  exact isAfter_some.mpr (hrest x hx)

end StreamRoute

/-! ### Where a scan stops -/

section Stops

variable (route : StreamRoute) (unreadable : StreamEntry → Bool)

/-- The scan goes no further than this entry. -/
def stopsAt (e : StreamEntry) : Bool :=
  (route.source.readsFirst && unreadable e) ||
    classify route.reader route.source e ≠ .skip

/-- What a session that reached an entry does with it. -/
def stopAt (s : StreamSession) (e : StreamEntry) : StreamSession × PageResult :=
  if route.source.readsFirst && unreadable e then (s, .failed)
  else if classify route.reader route.source e = .undecodable then
    (s.endWith (s.receiptDecodeFailedError route), .delivery (s.receiptDecodeFailedError route))
  else deliverEntry route unreadable s e

/-- The session at the last of the entries it looked at. -/
def passOver (entries : List StreamEntry) (s : StreamSession) : StreamSession :=
  match entries.getLast? with
  | some e => { s with scanAfter := some e.globalSequence }
  | none => s

variable {route unreadable}

theorem scanEntries_eq (entries : List StreamEntry) (s : StreamSession) :
    scanEntries route unreadable entries s =
      match entries.find? (stopsAt route unreadable) with
      | some e => stopAt route unreadable { s with scanAfter := some e.globalSequence } e
      | none => (passOver entries s, .passed) := by
  induction entries generalizing s with
  | nil => rfl
  | cons e rest ih =>
      rw [scanEntries]
      by_cases hread : (route.source.readsFirst && unreadable e) = true
      · have hstop : stopsAt route unreadable e = true := by simp [stopsAt, hread]
        rw [List.find?_cons_of_pos hstop]
        simp [stopAt, hread]
      · cases hclass : classify route.reader route.source e with
        | undecodable =>
            have hstop : stopsAt route unreadable e = true := by simp [stopsAt, hclass]
            rw [List.find?_cons_of_pos hstop]
            simp [stopAt, hread, hclass]
        | deliver =>
            have hstop : stopsAt route unreadable e = true := by simp [stopsAt, hclass]
            rw [List.find?_cons_of_pos hstop]
            simp [stopAt, hread, hclass]
        | skip =>
            have hstop : ¬stopsAt route unreadable e = true := by simp [stopsAt, hread, hclass]
            rw [List.find?_cons_of_neg hstop, if_neg hread]
            simp only [ih]
            have hpass : passOver rest { s with scanAfter := some e.globalSequence } =
                passOver (e :: rest) s := by
              unfold passOver
              cases hlast : rest.getLast? with
              | none => simp [List.getLast?_eq_none_iff.mp hlast]
              | some last => simp [List.getLast?_cons, hlast]
            rw [hpass]

/-- A page that is not empty, as the scanning sessions take it. -/
theorem scanPage_cases {feed : StoreFeed} {s : StreamSession} {page rest : List StreamEntry}
    (hpage : page ≠ []) (hup : route.upcoming feed s.scanAfter = page ++ rest) :
    (∃ skipped last rest, route.upcoming feed s.scanAfter = skipped ++ last :: rest ∧
      (∀ e ∈ skipped ++ [last], stopsAt route unreadable e = false) ∧
        scanEntries route unreadable page { s with lastQueryReturnedEmpty := false } =
          ({ s with scanAfter := some last.globalSequence, lastQueryReturnedEmpty := false },
            .passed)) ∨
    (∃ skipped e rest, route.upcoming feed s.scanAfter = skipped ++ e :: rest ∧
      (∀ e ∈ skipped, stopsAt route unreadable e = false) ∧
        stopsAt route unreadable e = true ∧
          scanEntries route unreadable page { s with lastQueryReturnedEmpty := false } =
            stopAt route unreadable
              { s with scanAfter := some e.globalSequence, lastQueryReturnedEmpty := false } e) := by
  rw [scanEntries_eq]
  cases hfind : page.find? (stopsAt route unreadable) with
  | none =>
      obtain ⟨skipped, last, rfl⟩ : ∃ skipped last, page = skipped ++ [last] :=
        ⟨page.dropLast, page.getLast hpage, (List.dropLast_append_getLast hpage).symm⟩
      left
      refine ⟨skipped, last, rest, by simpa using hup, ?_, by simp [passOver]⟩
      intro e he
      simpa using List.find?_eq_none.mp hfind e he
  | some e =>
      obtain ⟨hstop, skipped, after, rfl, hskipped⟩ := List.find?_eq_some_iff_append.mp hfind
      right
      refine ⟨skipped, e, after ++ rest, by simpa using hup, ?_, hstop, rfl⟩
      intro x hx
      simpa using hskipped x hx

/-- All that a page can come to. -/
theorem tryDeliver_cases (feed : StoreFeed) (s : StreamSession) :
    (route.upcoming feed s.scanAfter = [] ∧
      tryDeliver route unreadable feed s =
        ({ s with lastQueryReturnedEmpty := route.source.scans || s.lastQueryReturnedEmpty },
          .exhausted)) ∨
    (∃ skipped last rest, route.upcoming feed s.scanAfter = skipped ++ last :: rest ∧
      (∀ e ∈ skipped ++ [last], stopsAt route unreadable e = false) ∧
        route.source.scans = true ∧
          tryDeliver route unreadable feed s =
            ({ s with scanAfter := some last.globalSequence, lastQueryReturnedEmpty := false },
              .passed)) ∨
    (∃ skipped e rest, route.upcoming feed s.scanAfter = skipped ++ e :: rest ∧
      (∀ e ∈ skipped, stopsAt route unreadable e = false) ∧
        stopsAt route unreadable e = true ∧
          tryDeliver route unreadable feed s =
            stopAt route unreadable
              (if route.source.scans then
                { s with scanAfter := some e.globalSequence, lastQueryReturnedEmpty := false }
              else s) e) := by
  unfold tryDeliver
  cases hscans : route.source.scans with
  | true =>
      rw [if_pos rfl]
      unfold tryDeliverMatching
      rw [StreamRoute.queryEntriesAfter_eq]
      cases hpage : (route.upcoming feed s.scanAfter).take route.pageSize with
      | nil =>
          left
          rcases List.take_eq_nil_iff.mp hpage with hzero | hnil
          · exact absurd hzero route.pagePos.ne'
          · exact ⟨hnil, rfl⟩
      | cons first more =>
          right
          have hup : route.upcoming feed s.scanAfter =
              (first :: more) ++ (route.upcoming feed s.scanAfter).drop route.pageSize := by
            rw [← hpage, List.take_append_drop]
          rcases scanPage_cases (List.cons_ne_nil first more) hup with
            ⟨skipped, last, rest, heq, hskipped, hscan⟩ | ⟨skipped, e, rest, heq, hskipped, hstop, hscan⟩
          · exact .inl ⟨skipped, last, rest, heq, hskipped, rfl, hscan⟩
          · exact .inr ⟨skipped, e, rest, heq, hskipped, hstop, hscan⟩
  | false =>
      rw [if_neg (by simp)]
      unfold tryDeliverPage
      rw [StreamRoute.queryEntriesAfter_eq]
      obtain ⟨category, hsource⟩ : ∃ category, route.source = .eventCategory category := by
        cases hsource : route.source with
        | eventCategory category => exact ⟨category, rfl⟩
        | receiptStream receiptKind =>
            rw [hsource] at hscans
            cases hscans
        | entityStream entity scope =>
            rw [hsource] at hscans
            cases hscans
      cases hup : route.upcoming feed s.scanAfter with
      | nil => exact .inl ⟨rfl, by simp⟩
      | cons e rest =>
          right; right
          obtain ⟨n, hn⟩ := Nat.exists_eq_succ_of_ne_zero route.pagePos.ne'
          refine ⟨[], e, rest, rfl, by simp, by simp [stopsAt, hsource, classify], ?_⟩
          rw [hn, List.take_succ_cons]
          simp [stopAt, hsource, classify, StreamSource.readsFirst]

variable (route) in
/-- The next read of the frontier makes a watermark. -/
def watermarkDue (m : StreamMachine) : Bool :=
  (m.stage = .readingFrontier false || m.stage = .readingFrontier true) &&
    (!route.source.scans || m.session.lastQueryReturnedEmpty) &&
      decide (m.session.lastWatermarkedVisibleSeq < m.feed.frontier.globalSequence) &&
        decide (m.session.inFlight < route.queueCap)

/-- All that a read of the frontier can come to. -/
theorem maybeEmitWatermark_cases (frontier : FeedPoint) (s : StreamSession) :
    maybeEmitWatermark route frontier s = (s, none) ∨
    maybeEmitWatermark route frontier s =
      ((slowConsumer route s).1, some (slowConsumer route s).2) ∨
    ((!route.source.scans || s.lastQueryReturnedEmpty) = true ∧
      s.lastWatermarkedVisibleSeq < frontier.globalSequence ∧ s.inFlight < route.queueCap ∧
        maybeEmitWatermark route frontier s =
          ({ s.send route
              (.afterGlobalSequence route.cursors frontier.globalSequence frontier.wallMs) with
              lastWatermarkedVisibleSeq := frontier.globalSequence
              scanAfter := some frontier.globalSequence },
            some (s.watermarkDelivery route frontier))) := by
  unfold maybeEmitWatermark
  split_ifs with hempty hseen hfull
  · exact .inl rfl
  · exact .inl rfl
  · exact .inr (.inl rfl)
  · refine .inr (.inr ⟨?_, lt_of_not_ge hseen, Nat.not_le.mp hfull, rfl⟩)
    cases hscans : route.source.scans with
    | false => rfl
    | true => simpa [hscans] using hempty

theorem watermarkDue_of {m : StreamMachine} {woken : Bool}
    (hstage : m.stage = .readingFrontier woken)
    (hempty : (!route.source.scans || m.session.lastQueryReturnedEmpty) = true)
    (hlater : m.session.lastWatermarkedVisibleSeq < m.feed.frontier.globalSequence)
    (hroom : m.session.inFlight < route.queueCap) : watermarkDue route m = true := by
  simp only [watermarkDue, hstage, hempty, hlater, hroom]
  cases woken with
  | true => rfl
  | false => rfl

end Stops

end Batpak.Syncbat
